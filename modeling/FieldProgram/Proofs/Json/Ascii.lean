import FieldProgram.Proofs.Json.Written
import FieldProgram.Proofs.Text.Ascii

/-!
# Written documents in files

Whatever characters are in a document, it is written in ASCII. So its octets can be put into a file
and read back from there.

* `allAscii_written`: documents without floats are written in ASCII;
* `decodeSniffed_write`: the octets of what was written are decoded to it.
-/

namespace FieldProgram

open Numeral Text

theorem allAscii_shortDecimal (n : Int) : AllAscii (shortDecimal n).toList := by
  have digits : AllAscii (decimalDigits n.natAbs) :=
    allAscii_digits fun d hd => Nat.lt_trans (digits_lt (by decide) _ d hd) (by decide)
  rw [shortDecimal, String.toList_ofList, allAscii_append]
  refine ⟨?_, digits⟩
  split <;> decide

namespace Json

/-! ## Strings -/

theorem allAscii_unitEscape (u : Nat) : AllAscii (unitEscape u) := by
  have digits : AllAscii (hexDigits u) := allAscii_digits (digits_lt (by decide) u)
  have zeros := allAscii_replicate (show IsAscii '0' by decide) (4 - (hexDigits u).length)
  rw [unitEscape, hexDigitsPadded, allAscii_cons, allAscii_cons, allAscii_append]
  exact ⟨by decide, by decide, zeros, digits⟩

theorem allAscii_writtenChar (c : Char) : AllAscii (writtenChar c) := by
  rcases writtenChar_cases c with
    ⟨e, -, escaped, same⟩ | ⟨plain, small, same⟩ | ⟨-, same⟩ | ⟨-, same⟩
  · have letter : IsAscii e := by
      unfold simpleEscape? at escaped
      split at escaped
      all_goals first | decide | cases escaped
    rw [same]
    simp only [allAscii_cons, letter, allAscii_nil, and_true]
    decide
  · have positive : 0x20 ≤ c.toNat := plain.2.2
    rw [same, allAscii_cons]
    exact ⟨⟨by omega, by omega⟩, allAscii_nil⟩
  · rw [same]
    exact allAscii_unitEscape _
  · rw [same, allAscii_append]
    exact ⟨allAscii_unitEscape _, allAscii_unitEscape _⟩

theorem allAscii_writtenString (t : Text) : AllAscii (writtenString t) := by
  have inside : AllAscii (t.codes.flatMap writtenCode) := by
    intro ch hch
    obtain ⟨c, -, hch⟩ := List.mem_flatMap.mp hch
    cases c with
    | char c => exact allAscii_writtenChar c ch hch
    | lone half => exact allAscii_unitEscape _ ch hch
  simp only [writtenString, allAscii_cons, allAscii_append, inside, allAscii_nil]
  decide

/-! ## Layout -/

theorem allAscii_open (l : Layout) (depth : Nat) : AllAscii (l.open depth) := by
  cases l with
  | line => exact allAscii_nil
  | indented => exact allAscii_cons.mpr ⟨by decide, allAscii_replicate (by decide) _⟩

theorem allAscii_between (l : Layout) (depth : Nat) : AllAscii (l.between depth) := by
  cases l with
  | line => exact (by decide : AllAscii [',', ' '])
  | indented =>
    exact allAscii_cons.mpr ⟨by decide, allAscii_cons.mpr ⟨by decide,
      allAscii_replicate (by decide) _⟩⟩

theorem allAscii_parts (l : Layout) (depth : Nat) {opening closing : Char}
    (first : IsAscii opening) (last : IsAscii closing) {parts : List (List Char)}
    (all : ∀ p ∈ parts, AllAscii p) : AllAscii (l.parts depth opening closing parts) := by
  have inside := allAscii_intercalate (allAscii_between l (depth + 1)) all
  unfold Layout.parts
  split
  · simp [first, last]
  · simp [first, last, inside, allAscii_open]

/-! ## Documents -/

mutual

theorem allAscii_written (l : Layout) : (d : Document) → ∀ {depth levels cs},
    d.FitsIn levels → written l depth d = .ok cs → AllAscii cs
  | .null, _, _, _, _, h => by
    obtain rfl := Except.ok.inj h
    decide
  | .bool true, _, _, _, _, h => by
    obtain rfl := Except.ok.inj h
    decide
  | .bool false, _, _, _, _, h => by
    obtain rfl := Except.ok.inj h
    decide
  | .int n, _, _, _, _, h => by
    obtain ⟨s, hs, h⟩ := Except.bind_eq_ok.mp h
    obtain rfl := Except.ok.inj h
    obtain ⟨-, rfl⟩ := decimalText_eq_ok_iff.mp hs
    exact allAscii_shortDecimal n
  | .float _, _, _, _, fits, _ => fits.elim
  | .str t, _, _, _, _, h => by
    obtain rfl := Except.ok.inj h
    exact allAscii_writtenString t
  | .list xs, _, _, _, fits, h => by
    obtain ⟨ps, hps, h⟩ := Except.bind_eq_ok.mp h
    obtain rfl := Except.ok.inj h
    exact allAscii_parts l _ (by decide) (by decide) (allAscii_writtenItems l xs fits.2 hps)
  | .map ms, _, _, _, fits, h => by
    obtain ⟨ps, hps, h⟩ := Except.bind_eq_ok.mp h
    obtain rfl := Except.ok.inj h
    exact allAscii_parts l _ (by decide) (by decide) (allAscii_writtenMembers l ms fits.2 hps)

theorem allAscii_writtenItems (l : Layout) : (xs : List Document) → ∀ {depth levels ps},
    Document.FitsInItems levels xs → writtenItems l depth xs = .ok ps → ∀ p ∈ ps, AllAscii p
  | [], _, _, _, _, h => by
    obtain rfl := Except.ok.inj h
    simp
  | x :: xs, _, _, _, fits, h => by
    obtain ⟨first, hfirst, h⟩ := Except.bind_eq_ok.mp h
    obtain ⟨rest, hrest, h⟩ := Except.bind_eq_ok.mp h
    obtain rfl := Except.ok.inj h
    exact List.forall_mem_cons.mpr
      ⟨allAscii_written l x fits.1 hfirst, allAscii_writtenItems l xs fits.2 hrest⟩

theorem allAscii_writtenMembers (l : Layout) : (ms : List (Text × Document)) →
    ∀ {depth levels ps}, Document.FitsInMembers levels ms → writtenMembers l depth ms = .ok ps →
      ∀ p ∈ ps, AllAscii p
  | [], _, _, _, _, h => by
    obtain rfl := Except.ok.inj h
    simp
  | (k, v) :: ms, _, _, _, fits, h => by
    obtain ⟨value, hvalue, h⟩ := Except.bind_eq_ok.mp h
    obtain ⟨rest, hrest, h⟩ := Except.bind_eq_ok.mp h
    obtain rfl := Except.ok.inj h
    have member := allAscii_written l v fits.1 hvalue
    refine List.forall_mem_cons.mpr ⟨?_, allAscii_writtenMembers l ms fits.2 hrest⟩
    simp only [allAscii_append, allAscii_cons, allAscii_writtenString, member, and_true, true_and]
    decide

end

theorem decodeSniffed_write {l : Layout} {d : Document} {s : String} {levels : Nat}
    (fits : d.FitsIn levels) (h : write l d = .ok s) :
    decodeSniffed (Utf8.encode (s.toList ++ ['\n'])) = .ok ((s : Text) ++ ("\n" : Text)).codes := by
  obtain ⟨cs, hcs, h⟩ := Except.bind_eq_ok.mp h
  obtain rfl := Except.ok.inj h
  have ascii : AllAscii (cs ++ ['\n']) :=
    allAscii_append.mpr ⟨allAscii_written l d fits hcs, by decide⟩
  rw [String.toList_ofList, decodeSniffed_ascii ascii, codes_line]
  exact congrArg _ (codesOf_append cs ['\n'])

end Json

end FieldProgram
