import FieldProgram.Json.Reader
import FieldProgram.Proofs.Outcome

/-!
# What readers take

Every reader of JSON that has a result leaves fewer code points than it was given, and those that it
takes are no control characters but blanks.

* `Passes`, `Takes`: what is left behind such code points, none at all or at least one;
* `string_takes`, `memberKey_takes`: behind a string and behind a key with its colon;
* `plainValue_cases`, `plainValue_takes`: a word or a number, and what is left behind it.
-/

namespace FieldProgram.Json

/-! ## Code points that are left out -/

/-- The code point is a blank or no control character. -/
def Stands (c : Code) : Prop := isSpace c = true ∨ 0x20 ≤ c.number

instance (c : Code) : Decidable (Stands c) := inferInstanceAs (Decidable (_ ∨ _))

/-- `rest` is left of the code points behind some that stand in texts. -/
inductive Passes : (cs rest : List Code) → Prop
  | done (cs : List Code) : Passes cs cs
  | code {c : Code} {r rest : List Code} (stands : Stands c) (others : Passes r rest) :
    Passes (c :: r) rest

/-- `rest` is left of the code points behind at least one that stands in texts. -/
inductive Takes : (cs rest : List Code) → Prop
  | code {c : Code} {r rest : List Code} (stands : Stands c) (others : Passes r rest) :
    Takes (c :: r) rest

variable {c : Code} {cs mid rest : List Code}

theorem Passes.trans (h : Passes cs mid) (h' : Passes mid rest) : Passes cs rest := by
  induction h with
  | done => exact h'
  | code stands _ ih => exact .code stands (ih h')

theorem Takes.passes (h : Takes cs rest) : Passes cs rest := by
  obtain ⟨stands, others⟩ := h
  exact .code stands others

theorem Takes.trans_passes (h : Takes cs mid) (h' : Passes mid rest) : Takes cs rest := by
  obtain ⟨stands, others⟩ := h
  exact .code stands (others.trans h')

theorem Passes.trans_takes (h : Passes cs mid) (h' : Takes mid rest) : Takes cs rest := by
  cases h with
  | done => exact h'
  | code stands others => exact .code stands (others.trans h'.passes)

theorem Passes.length (h : Passes cs rest) : rest.length ≤ cs.length := by
  induction h with
  | done => exact Nat.le_refl _
  | code _ _ ih => exact Nat.le_succ_of_le ih

theorem Takes.length (h : Takes cs rest) : rest.length < cs.length := by
  obtain ⟨-, others⟩ := h
  exact Nat.lt_succ_of_le others.length

theorem Passes.all (h : Passes cs []) : ∀ c ∈ cs, Stands c := by
  generalize left : [] = rest at h
  induction h with
  | done => simp [← left]
  | code stands _ ih => exact List.forall_mem_cons.mpr ⟨stands, ih left⟩

theorem Passes.append (h : ∀ c ∈ cs, Stands c) (rest : List Code) : Passes (cs ++ rest) rest := by
  induction cs with
  | nil => exact .done rest
  | cons c cs ih =>
    obtain ⟨first, others⟩ := List.forall_mem_cons.mp h
    exact .code first (ih others)

theorem Passes.dropWhile {p : Code → Bool} (h : ∀ c, p c = true → Stands c) (cs : List Code) :
    Passes cs (cs.dropWhile p) := by
  have stands : ∀ c ∈ cs.takeWhile p, Stands c :=
    fun c hc => h c (List.all_eq_true.mp List.all_takeWhile c hc)
  have front := Passes.append stands (cs.dropWhile p)
  rwa [List.takeWhile_append_dropWhile] at front

/-! ## Blanks -/

theorem skipSpace_passes (cs : List Code) : Passes cs (skipSpace cs) :=
  Passes.dropWhile (fun _ blank => .inl blank) cs

theorem takes_of_skipSpace (h : skipSpace cs = c :: rest) (stands : Stands c) : Takes cs rest := by
  have blanks := skipSpace_passes cs
  rw [h] at blanks
  exact blanks.trans_takes (.code stands (.done rest))

/-! ## Strings -/

theorem stands_of_hexCode? {d : Nat} (h : hexCode? c = some d) : Stands c := by
  obtain ⟨ch, hch, digit⟩ := Option.bind_eq_some_iff.mp h
  have visible : '0' ≤ ch := by
    unfold Numeral.hexValue? at digit
    split at digit
    · rename_i between
      exact between.1
    · split at digit
      · rename_i between
        exact Char.le_trans (by decide) between.1
      · split at digit
        · rename_i between
          exact Char.le_trans (by decide) between.1
        · cases digit
  cases c with
  | char ch' =>
    obtain rfl := Option.some.inj hch
    exact .inr (Nat.le_trans (by decide) visible)
  | lone half => cases hch

theorem stands_of_hexCodes {ds : List Nat} (h : cs.mapM hexCode? = some ds) :
    ∀ c ∈ cs, Stands c := by
  induction cs generalizing ds with
  | nil => simp
  | cons c cs ih =>
    rw [List.mapM_cons] at h
    obtain ⟨d, first, h⟩ := Option.bind_eq_some_iff.mp h
    obtain ⟨ds, others, -⟩ := Option.bind_eq_some_iff.mp h
    exact List.forall_mem_cons.mpr ⟨stands_of_hexCode? first, ih others⟩

theorem codeUnit?_eq_some {u : Nat} (h : codeUnit? cs = some (u, rest)) :
    ∃ a b c d ds, cs = a :: b :: c :: d :: rest ∧ [a, b, c, d].mapM hexCode? = some ds ∧
      u = Numeral.ofDigits 16 ds := by
  unfold codeUnit? at h
  split at h
  · rename_i a b c d e r
    obtain ⟨ds, digits, h⟩ := Option.bind_eq_some_iff.mp h
    obtain ⟨rfl, rfl⟩ := Prod.mk.inj (Option.some.inj h)
    exact ⟨a, b, c, d, ds, rfl, digits, rfl⟩
  · cases h

theorem codeUnit?_takes {u : Nat} (h : codeUnit? cs = some (u, rest)) : Takes cs rest := by
  obtain ⟨a, b, c, d, ds, rfl, digits, -⟩ := codeUnit?_eq_some h
  obtain ⟨first, others⟩ := List.forall_mem_cons.mp (stands_of_hexCodes digits)
  exact .code first (Passes.append others rest)

theorem unicodeStep_takes (h : unicodeStep cs = .code c rest) : Takes cs rest := by
  unfold unicodeStep at h
  split at h
  · cases h
  · rename_i u after first
    have taken := codeUnit?_takes first
    split at h
    · rename_i more _
      split at h
      · cases h
      · rename_i v behind second
        split at h
        · obtain ⟨-, rfl⟩ := StringStep.code.inj h
          have letter : Passes (.char '\\' :: .char 'u' :: more) more :=
            Passes.append (show ∀ c ∈ [.char '\\', .char 'u'], Stands c by decide) more
          exact taken.trans_passes (letter.trans (codeUnit?_takes second).passes)
        · obtain ⟨-, rfl⟩ := StringStep.code.inj h
          exact taken
    · obtain ⟨-, rfl⟩ := StringStep.code.inj h
      exact taken

theorem stands_of_simpleEscape? {ch : Char} (h : (c.char?.bind simpleEscape?) = some ch) :
    Stands c := by
  obtain ⟨ch', hch, escape⟩ := Option.bind_eq_some_iff.mp h
  have visible : 0x20 ≤ ch'.toNat := by
    unfold simpleEscape? at escape
    split at escape
    all_goals first | decide | cases escape
  cases c with
  | char ch'' =>
    obtain rfl := Option.some.inj hch
    exact .inr visible
  | lone half => cases hch

theorem escapeStep_takes {start : Nat} (h : escapeStep start cs = .code c rest) :
    Takes cs rest := by
  unfold escapeStep at h
  split at h
  · cases h
  · exact .code (by decide) (unicodeStep_takes h).passes
  · split at h
    · rename_i escape
      obtain ⟨-, rfl⟩ := StringStep.code.inj h
      exact .code (stands_of_simpleEscape? escape) (.done _)
    · cases h

theorem escapeStep_ne_close {start : Nat} : escapeStep start cs ≠ .close rest := by
  intro h
  unfold escapeStep at h
  split at h
  · cases h
  · unfold unicodeStep at h
    repeat' (split at h)
    all_goals cases h
  · split at h <;> cases h

theorem stringStep_takes {start : Nat}
    (h : stringStep start cs = .close rest ∨ ∃ c, stringStep start cs = .code c rest) :
    Takes cs rest := by
  unfold stringStep at h
  split at h
  · rcases h with h | ⟨c, h⟩ <;> cases h
  · rcases h with h | ⟨c, h⟩
    · obtain rfl := StringStep.close.inj h
      exact .code (by decide) (.done _)
    · cases h
  · rcases h with h | ⟨c, h⟩
    · exact absurd h escapeStep_ne_close
    · exact .code (by decide) (escapeStep_takes h).passes
  · rcases h with h | ⟨c, h⟩ <;> split at h
    · cases h
    · cases h
    · cases h
    · rename_i visible
      obtain ⟨-, rfl⟩ := StringStep.code.inj h
      exact .code (.inr (Nat.le_of_not_lt visible)) (.done _)

theorem stringFrom_takes {start fuel : Nat} {read : List Code} {t : Text}
    (h : stringFrom start fuel read cs = .ok (t, rest)) : Takes cs rest := by
  induction fuel generalizing read cs with
  | zero => cases h
  | succ fuel ih =>
    rw [stringFrom] at h
    split at h
    · rename_i after step
      obtain ⟨-, rfl⟩ := Prod.mk.inj (Except.ok.inj h)
      exact stringStep_takes (.inl step)
    · rename_i c after step
      exact (stringStep_takes (.inr ⟨c, step⟩)).trans_passes (ih h).passes
    · cases h

theorem string_takes {t : Text} (h : string cs = .ok (t, rest)) : Takes cs rest :=
  stringFrom_takes h

/-! ## Keys -/

theorem memberKey_eq_ok_iff {key : Text} :
    memberKey cs = .ok (key, rest) ↔ ∃ r after r', cs = .char '"' :: r ∧
      string r = .ok (key, after) ∧ skipSpace after = .char ':' :: r' ∧ rest = skipSpace r' := by
  unfold memberKey
  split
  · rename_i r
    rw [Except.bind_eq_ok]
    constructor
    · rintro ⟨⟨k, after⟩, hs, h⟩
      dsimp only at h
      split at h
      · rename_i r' colon
        obtain ⟨rfl, rfl⟩ := Prod.mk.inj (Except.ok.inj h)
        exact ⟨r, after, r', rfl, hs, colon, rfl⟩
      · cases h
    · rintro ⟨r, after, r', same, hs, colon, rfl⟩
      obtain ⟨-, rfl⟩ := List.cons.inj same
      refine ⟨(key, after), hs, ?_⟩
      dsimp only
      rw [colon]
      rfl
  · rename_i other
    simp only [reduceCtorEq, false_iff]
    rintro ⟨r, after, r', rfl, -⟩
    exact other r rfl

theorem memberKey_takes {key : Text} (h : memberKey cs = .ok (key, rest)) : Takes cs rest := by
  obtain ⟨r, after, r', rfl, hs, colon, rfl⟩ := memberKey_eq_ok_iff.mp h
  have name := string_takes hs
  have mark := takes_of_skipSpace colon (by decide)
  exact .code (by decide) (name.passes.trans (mark.passes.trans (skipSpace_passes r')))

/-! ## Words and numbers -/

theorem word_of_word? {d : Document} (h : word? cs = some (d, rest)) :
    ∃ w ∈ words, cs = w.1.codes ++ rest ∧ d = w.2 := by
  obtain ⟨w, hw, same⟩ := Option.map_eq_some_iff.mp h
  obtain ⟨rfl, rfl⟩ := Prod.mk.inj same
  have starts := List.find?_some hw
  obtain ⟨tail, rfl⟩ := List.isPrefixOf_iff_prefix.mp starts
  exact ⟨w, List.mem_of_find?_eq_some hw, by rw [List.drop_left], rfl⟩

/-- What is read as neither a string nor in brackets is a word, or else a number with a value. -/
theorem plainValue_cases {levels : Nat} {d : Document}
    (h : plainValue levels cs = .ok (d, rest)) :
    (∃ w ∈ words, cs = w.1.codes ++ rest ∧ d = w.2) ∨
      ∃ n, number? cs = some (n, rest) ∧ n.value = .ok d := by
  unfold plainValue at h
  split at h
  · rename_i r word
    split at h
    · cases h
    · obtain rfl := Except.ok.inj h
      exact .inl (word_of_word? word)
  · split at h
    · cases h
    · rename_i n after number
      split at h
      · rename_i v value
        obtain ⟨rfl, rfl⟩ := Prod.mk.inj (Except.ok.inj h)
        exact .inr ⟨n, number, value⟩
      · cases h

theorem word_takes {w : Text × Document} (h : w ∈ words) (rest : List Code) :
    Takes (w.1.codes ++ rest) rest := by
  have known : ∀ w ∈ words, w.1.codes ≠ [] ∧ ∀ c ∈ w.1.codes, Stands c := by decide
  obtain ⟨some_code, stands⟩ := known w h
  obtain ⟨c, r, codes⟩ := List.exists_cons_of_ne_nil some_code
  rw [codes] at stands ⊢
  obtain ⟨first, others⟩ := List.forall_mem_cons.mp stands
  exact .code first (Passes.append others rest)

theorem stands_of_digit (h : isDigitCode c = true) : Stands c := by
  obtain ⟨d, hd⟩ := Option.isSome_iff_exists.mp h
  obtain ⟨ch, hch, digit⟩ := Option.bind_eq_some_iff.mp hd
  unfold Numeral.asciiDigit? at digit
  split at digit
  · rename_i between
    cases c with
    | char ch' =>
      obtain rfl := Option.some.inj hch
      exact .inr (Nat.le_trans (by decide) between.1)
    | lone half => cases hch
  · cases digit

theorem digitRun_passes (cs : List Code) : Passes cs (digitRun cs).2 :=
  Passes.dropWhile (fun _ digit => stands_of_digit digit) cs

theorem whole?_takes {ds : List Nat} (h : whole? cs = some (ds, rest)) : Takes cs rest := by
  unfold whole? at h
  split at h
  · obtain ⟨-, rfl⟩ := Prod.mk.inj (Option.some.inj h)
    exact .code (by decide) (.done _)
  · rename_i c r _
    split at h
    · rename_i digit
      obtain ⟨-, rfl⟩ := Prod.mk.inj (Option.some.inj h)
      rw [List.dropWhile_cons_of_pos digit]
      exact .code (stands_of_digit digit) (digitRun_passes r)
    · cases h
  · cases h

theorem fraction_passes (cs : List Code) : Passes cs (fraction cs).2 := by
  unfold fraction
  split
  · rename_i r
    dsimp only
    split
    · exact .done _
    · exact .code (by decide) (digitRun_passes r)
  · exact .done _

theorem powerSign_passes (cs : List Code) : Passes cs (powerSign cs).2 := by
  unfold powerSign
  split
  · exact .code (by decide) (.done _)
  · exact .code (by decide) (.done _)
  · exact .done _

theorem power_passes (cs : List Code) : Passes cs (power cs).2 := by
  unfold power
  split
  · rename_i c r
    split
    · rename_i letter
      have stands : Stands c := by rcases letter with rfl | rfl <;> decide
      dsimp only
      split
      · exact .done _
      · exact .code stands ((powerSign_passes r).trans (digitRun_passes _))
    · exact .done _
  · exact .done _

theorem unsignedNumber?_takes {negative : Bool} {n : Number}
    (h : unsignedNumber? negative cs = some (n, rest)) : Takes cs rest := by
  obtain ⟨⟨w, after⟩, hw, h⟩ := Option.bind_eq_some_iff.mp h
  have same : (power (fraction after).2).2 = rest := congrArg Prod.snd (Option.some.inj h)
  have behind := (fraction_passes after).trans (power_passes (fraction after).2)
  rw [same] at behind
  exact (whole?_takes hw).trans_passes behind

theorem number?_takes {n : Number} (h : number? cs = some (n, rest)) : Takes cs rest := by
  unfold number? at h
  split at h
  · exact .code (by decide) (unsignedNumber?_takes h).passes
  · exact unsignedNumber?_takes h

theorem plainValue_takes {levels : Nat} {d : Document}
    (h : plainValue levels cs = .ok (d, rest)) : Takes cs rest := by
  rcases plainValue_cases h with ⟨w, word, rfl, -⟩ | ⟨n, number, -⟩
  · exact word_takes word rest
  · exact number?_takes number

end FieldProgram.Json
