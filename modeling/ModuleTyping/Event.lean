import ModuleTyping.Dict
import ModuleTyping.Text.Quoted

/-!
# Events

Services announce what they find as events, and tools subscribe to the events they
want to see. A bus holds the subscriptions and a least level below which nothing is
delivered; a subscription may ask for a higher level of its own. Publishing decides
nothing for the publisher: it hands the event to the subscribers that receive it and says
how many they were.
-/

namespace ModuleTyping

/-- How severe an event is, from least to most. -/
inductive Level where
  | debug
  | info
  | warning
  | error
  deriving DecidableEq, Repr

namespace Level

/-- All levels. -/
def all : List Level :=
  [debug, info, warning, error]

/-- The place of a level in the order of severity. -/
def rank : Level → Nat
  | debug => 0
  | info => 1
  | warning => 2
  | error => 3

instance : LE Level := ⟨fun a b => a.rank ≤ b.rank⟩

instance (a b : Level) : Decidable (a ≤ b) := inferInstanceAs (Decidable (a.rank ≤ b.rank))

/-- The word for a level in configuration and reports. -/
def word : Level → String
  | debug => "debug"
  | info => "info"
  | warning => "warning"
  | error => "error"

/-- The level a word stands for. -/
def ofWord? : String → Option Level
  | "debug" => some debug
  | "info" => some info
  | "warning" => some warning
  | "error" => some error
  | _ => none

/-- The level's name as it is shown for inspection. -/
def title : Level → String
  | debug => "Debug"
  | info => "Info"
  | warning => "Warning"
  | error => "Error"

theorem ofWord?_word (level : Level) : ofWord? level.word = some level := by
  cases level <;> rfl

end Level

/-- Something announced: its name, how severe it is, and what it is about. -/
structure Event (π : Type) where
  name : String
  level : Level
  payload : π

/-- A subscriber to the events of one name, and the least level it wants, if it set one. -/
structure Subscription (σ : Type) where
  subscriber : σ
  least : Option Level

/-- Subscriptions by event name, in the order they were made, and the least level that
is delivered at all. -/
structure Bus (σ : Type) where
  least : Level := .debug
  subscriptions : Dict (List (Subscription σ)) := ∅

namespace Bus

variable {σ π : Type}

/-- The subscriptions for one event name. -/
def subscribers (bus : Bus σ) (name : String) : List (Subscription σ) :=
  (bus.subscriptions.get? name).getD []

/-- Adds a subscription after those already made for `name`. -/
def subscribe (bus : Bus σ) (name : String) (subscription : Subscription σ) : Bus σ :=
  { bus with
    subscriptions := bus.subscriptions.insert name (bus.subscribers name ++ [subscription]) }

/-- Changes the least level that is delivered. -/
def setLeast (bus : Bus σ) (level : Level) : Bus σ :=
  { bus with least := level }

/-- Drops the subscriptions for `name`, or all of them when no name is given. -/
def clear (bus : Bus σ) (name : Option String) : Bus σ :=
  match name with
  | some name => { bus with subscriptions := bus.subscriptions.erase name }
  | none => { bus with subscriptions := ∅ }

/-- The subscription is open to events of this level. -/
def accepts (subscription : Subscription σ) (level : Level) : Bool :=
  match subscription.least with
  | none => true
  | some least => least ≤ level

/-- Who receives an event, in order of subscription. -/
def receivers (bus : Bus σ) (event : Event π) : List σ :=
  if bus.least ≤ event.level then
    ((bus.subscribers event.name).filter (accepts · event.level)).map Subscription.subscriber
  else []

/-- Hands an event to those of the subscriptions that are open to its level, one after
another, and counts them. -/
def handOut (event : Event π) : List (Subscription σ) → Nat × List (σ × Event π)
  | [] => (0, [])
  | subscription :: rest =>
    let (count, handed) := handOut event rest
    if accepts subscription event.level then
      (count + 1, (subscription.subscriber, event) :: handed)
    else (count, handed)

/-- Publishes an event. Says how many subscribers receive it, and who receives what. -/
def publish (bus : Bus σ) (event : Event π) : Nat × List (σ × Event π) :=
  if bus.least ≤ event.level then handOut event (bus.subscribers event.name) else (0, [])

/-- The names that have subscriptions, in ascending order. -/
def names (bus : Bus σ) : List String :=
  bus.subscriptions.keys

/-- The least level and the names with subscriptions, for inspection. -/
def describe (bus : Bus σ) : String :=
  "EventBus \x7b min_level: " ++ bus.least.title ++ ", events: " ++ Text.quotedList bus.names ++
    " \x7d"

end Bus

end ModuleTyping
