import FieldProgram.Text.Basic

/-!
# Logs

A log is a list of records, each with a level and the name of the logger that made it. A `Run`
makes records on the way to its outcome; what was recorded before a failure is kept.
-/

namespace FieldProgram.Log

inductive Level
  | debug
  | info
  | warning
  | error
  | critical
  deriving DecidableEq, Repr

namespace Level

def all : List Level := [.debug, .info, .warning, .error, .critical]

/-- The rank of a level among the levels. -/
def rank : Level → Nat
  | .debug => 10
  | .info => 20
  | .warning => 30
  | .error => 40
  | .critical => 50

def word : Level → String
  | .debug => "DEBUG"
  | .info => "INFO"
  | .warning => "WARNING"
  | .error => "ERROR"
  | .critical => "CRITICAL"

/-- The level in lower case, as settings write it. -/
def name : Level → String
  | .debug => "debug"
  | .info => "info"
  | .warning => "warning"
  | .error => "error"
  | .critical => "critical"

/-- The level of a name. -/
def ofName? (t : Text) : Option Level := all.find? fun l => t == l.name

end Level

inductive Logger
  | root
  | loader
  deriving DecidableEq, Repr

def Logger.name : Logger → String
  | .root => "root"
  | .loader => "feltvm.serde.deserialize_program"

structure Record where
  level : Level
  logger : Logger
  message : Text
  deriving DecidableEq, Repr

/-- The record as a line. -/
def Record.line (r : Record) : Text :=
  r.level.word ++ ":" ++ r.logger.name ++ ":" ++ r.message ++ "\n"

/-- The records at a level or above it. -/
def above (threshold : Level) (log : List Record) : List Record :=
  log.filter fun r => threshold.rank ≤ r.level.rank

/-- The log as text. -/
def text (log : List Record) : Text := Text.intercalate "" (log.map Record.line)

theorem above_sublist_above {low high : Level} (h : low.rank ≤ high.rank) (log : List Record) :
    (above high log).Sublist (above low log) := by
  have : above high log = (above low log).filter fun r => high.rank ≤ r.level.rank := by
    rw [above, above, List.filter_filter]
    exact List.filter_congr fun r _ => by
      by_cases hr : high.rank ≤ r.level.rank <;> simp [hr, Nat.le_trans h]
  rw [this]
  exact List.filter_sublist

/-- A computation that makes records and ends in a result or an error. -/
structure Run (ε α : Type) where
  records : List Record
  outcome : Except ε α

namespace Run

variable {ε α β : Type}

/-- A computation that makes no records. -/
def ofExcept (e : Except ε α) : Run ε α := ⟨[], e⟩

/-- Makes one record. -/
def note (level : Level) (logger : Logger) (message : Text) : Run ε Unit :=
  ⟨[⟨level, logger, message⟩], .ok ()⟩

/-- Runs one computation and, if it has a result, the next. -/
def andThen (r : Run ε α) (next : α → Run ε β) : Run ε β :=
  match r.outcome with
  | .ok a =>
    let r' := next a
    ⟨r.records ++ r'.records, r'.outcome⟩
  | .error e => ⟨r.records, .error e⟩

instance : Monad (Run ε) where
  pure a := ofExcept (.ok a)
  bind := andThen

/-- Records apart, a computation is that of its outcomes. -/
theorem outcome_bind (r : Run ε α) (next : α → Run ε β) :
    (r >>= next).outcome = r.outcome >>= fun a => (next a).outcome := by
  show (r.andThen next).outcome = _
  unfold andThen
  cases r.outcome <;> rfl

end Run

end FieldProgram.Log
