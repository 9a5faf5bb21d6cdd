/-!
Events of a run, and results that carry the events noted on the way to them. `Logged` is a writer:
`bind` keeps the value of the second step and the events of both, in order.
-/

namespace HeaderInterop

inductive Severity where
  | error
  | warning
  | info
  | debug
deriving DecidableEq, Repr

namespace Severity

def rank : Severity → Nat
  | error => 0
  | warning => 1
  | info => 2
  | debug => 3

def label : Severity → String
  | error => "ERROR"
  | warning => "WARN"
  | info => "INFO"
  | debug => "DEBUG"

end Severity

structure Event where
  severity : Severity
  text : String
deriving DecidableEq, Repr

def Event.line (event : Event) : String :=
  event.severity.label ++ " " ++ event.text

/-- The events at most as verbose as `limit`. -/
def eventsUpTo (limit : Severity) (events : List Event) : List Event :=
  events.filter fun event => event.severity.rank ≤ limit.rank

structure Logged (α : Type) where
  value : α
  events : List Event := []
deriving Repr

namespace Logged

def note (severity : Severity) (text : String) : Logged Unit :=
  ⟨(), [⟨severity, text⟩]⟩

instance : Monad Logged where
  pure a := ⟨a, []⟩
  bind x f := ⟨(f x.value).value, x.events ++ (f x.value).events⟩

@[simp] theorem value_pure {α : Type} (a : α) : (pure a : Logged α).value = a := rfl

@[simp] theorem events_pure {α : Type} (a : α) : (pure a : Logged α).events = [] := rfl

@[simp] theorem value_bind {α β : Type} (x : Logged α) (f : α → Logged β) :
    (x >>= f).value = (f x.value).value := rfl

@[simp] theorem events_bind {α β : Type} (x : Logged α) (f : α → Logged β) :
    (x >>= f).events = x.events ++ (f x.value).events := rfl

@[simp] theorem value_note (severity : Severity) (text : String) :
    (note severity text).value = () := rfl

@[simp] theorem events_note (severity : Severity) (text : String) :
    (note severity text).events = [⟨severity, text⟩] := rfl

@[ext] theorem ext {α : Type} {x y : Logged α} (hv : x.value = y.value)
    (he : x.events = y.events) : x = y := by
  cases x; cases y; simp_all

end Logged

instance : LawfulMonad Logged :=
  LawfulMonad.mk' Logged (fun _ => Logged.ext rfl (by simp [Functor.map]))
    (fun _ _ => Logged.ext rfl (by simp)) (fun _ _ _ => Logged.ext rfl (by simp))

end HeaderInterop
