/-
**Outcomes with a log.**

An action has an outcome, a value or an error, and the lines it logs on the way. Lines that are less
important than `info` only tell how it proceeds and are left out. What it logs never influences what
it does:

* `outcome_pure`, `outcome_bind`: outcomes compose as if nothing were logged;
* `outcome_attempt`: an attempt turns an error into a value;
* `outcome_mapM`: one action for each item of a list;
* `bind_congr_of_ok`: what is done next counts at the value only;
* the instance of `LawfulMonad`.
-/

import ExtensionCatalog.Error

namespace ExtensionCatalog

/-- The importance of a log line. -/
inductive LogLevel where
  | info
  | warn
  | error
deriving DecidableEq

/-- The name of a level in a log. -/
def LogLevel.name : LogLevel → String
  | info => "INFO"
  | warn => "WARN"
  | error => "ERROR"

/-- A line of the log. -/
structure LogLine where
  level : LogLevel
  message : String
deriving DecidableEq

/-- The outcome of an action and the lines it logged. -/
structure Logged (α : Type) where
  log : List LogLine
  outcome : Except Error α

namespace Logged

variable {α β : Type}

instance : Monad Logged where
  pure value := ⟨[], .ok value⟩
  bind first next :=
    match first.outcome with
    | .ok value =>
      let rest := next value
      ⟨first.log ++ rest.log, rest.outcome⟩
    | .error error => ⟨first.log, .error error⟩

/-- An outcome, with nothing logged. -/
def ofExcept (outcome : Except Error α) : Logged α := ⟨[], outcome⟩

instance : MonadLift (Except Error) Logged := ⟨ofExcept⟩

/-- Fail, with nothing logged. -/
def fail (error : Error) : Logged α := ⟨[], .error error⟩

/-- Log one line. -/
def note (level : LogLevel) (message : String) : Logged Unit := ⟨[⟨level, message⟩], .ok ()⟩

/-- The outcome as a value: an attempt never fails. -/
def attempt (action : Logged α) : Logged (Except Error α) := ⟨action.log, .ok action.outcome⟩

/-- The action with its error replaced. -/
def mapError (change : Error → Error) (action : Logged α) : Logged α :=
  ⟨action.log, action.outcome.mapError change⟩

@[simp] theorem outcome_pure (value : α) : (pure value : Logged α).outcome = .ok value := rfl

/-- Outcomes compose as if nothing were logged. -/
@[simp] theorem outcome_bind (first : Logged α) (next : α → Logged β) :
    (first >>= next).outcome = first.outcome >>= fun value => (next value).outcome := by
  obtain ⟨log, outcome⟩ := first
  cases outcome <;> rfl

@[simp] theorem outcome_ofExcept (outcome : Except Error α) :
    (ofExcept outcome).outcome = outcome := rfl

@[simp] theorem outcome_fail (error : Error) : (fail error : Logged α).outcome = .error error := rfl

@[simp] theorem outcome_note (level : LogLevel) (message : String) :
    (note level message).outcome = .ok () := rfl

/-- An attempt turns an error into a value. -/
@[simp] theorem outcome_attempt (action : Logged α) :
    action.attempt.outcome = .ok action.outcome := rfl

@[simp] theorem outcome_mapError (change : Error → Error) (action : Logged α) :
    (action.mapError change).outcome = action.outcome.mapError change := rfl

instance : LawfulMonad Logged := LawfulMonad.mk' Logged
  (by
    rintro _ ⟨log, outcome⟩
    cases outcome with
    | error => rfl
    | ok value => simp [Functor.map])
  (by intros; simp [bind, pure])
  (by
    rintro _ _ _ ⟨log, outcome⟩ next last
    cases outcome with
    | error => rfl
    | ok value =>
      simp only [bind]
      cases (next value).outcome <;> simp)

/-- The outcomes of actions in a row. -/
theorem outcome_mapM (action : α → Logged β) (items : List α) :
    (items.mapM action).outcome = items.mapM fun item => (action item).outcome := by
  induction items with
  | nil => rfl
  | cons item rest hypothesis =>
    rw [List.mapM_cons, List.mapM_cons, outcome_bind]
    refine bind_congr fun value => ?_
    rw [outcome_bind, hypothesis]
    rfl

/-- What is done next counts at the value of the first action only. -/
theorem bind_congr_of_ok {first : Logged α} {next other : α → Logged β}
    (agree : ∀ value, first.outcome = .ok value → next value = other value) :
    first >>= next = first >>= other := by
  obtain ⟨log, outcome⟩ := first
  cases outcome with
  | error => rfl
  | ok value =>
    simp only [bind]
    rw [agree value rfl]

end Logged

end ExtensionCatalog
