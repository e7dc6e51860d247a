import ModuleTyping.Event
import ModuleTyping.Proofs.Histories

/-!
# Deliveries

Who receives an event depends on all that was asked of the bus before: subscriptions are made,
cleared by name or all at once, and made again, and the least level of the bus changes. A
subscription is live if it was made and no clearing of its name came after it (`Live`), and
the bus lists the live subscriptions in the order of the times at which they were made
(`subscribers_afterAll`).

What one request does to the subscriptions of a name is said once (`after_cases`); the lists
after a sequence of requests follow by induction.
-/

namespace ModuleTyping.Bus

variable {σ π : Type}

/-- What can be asked of a bus. -/
inductive Request (σ π : Type) where
  /-- Made with or without a level of its own. -/
  | subscribe (name : String) (subscription : Subscription σ)
  | setLeast (level : Level)
  /-- Of one name, or of all. -/
  | clear (name : Option String)
  | publish (event : Event π)

namespace Request

/-- The level that a request sets. -/
def level? : Request σ π → Option Level
  | .setLeast level => some level
  | _ => none

/-- The request drops the subscriptions for `name`. -/
def Clears (name : String) : Request σ π → Prop
  | .clear none => True
  | .clear (some other) => other = name
  | _ => False

end Request

/-- The bus after a request. Publishing leaves it as it was. -/
def after (bus : Bus σ) : Request σ π → Bus σ
  | .subscribe name subscription => bus.subscribe name subscription
  | .setLeast level => bus.setLeast level
  | .clear name => bus.clear name
  | .publish _ => bus

/-- The bus after requests that are made one after another. -/
def afterAll (bus : Bus σ) (requests : List (Request σ π)) : Bus σ :=
  requests.foldl after bus

theorem afterAll_concat (bus : Bus σ) (requests : List (Request σ π)) (request : Request σ π) :
    bus.afterAll (requests ++ [request]) = (bus.afterAll requests).after request := by
  simp [afterAll]

/-- What publishing answers. The other requests have no answer. -/
def answer (bus : Bus σ) : Request σ π → Option (Nat × List (σ × Event π))
  | .publish event => some (bus.publish event)
  | _ => none

/-- The answers to requests that are made one after another. -/
def answers (bus : Bus σ) : List (Request σ π) → List (Option (Nat × List (σ × Event π)))
  | [] => []
  | request :: rest => bus.answer request :: (bus.after request).answers rest

/-- The level that was set last, or the one at the start if none was set. -/
def leastAfter (start : Level) (requests : List (Request σ π)) : Level :=
  (requests.filterMap Request.level?).getLast?.getD start

/-- The subscription for `name` was made at a time, and not cleared since. -/
def Live (requests : List (Request σ π)) (name : String) (time : Nat)
    (subscription : Subscription σ) : Prop :=
  Standing requests time (· = .subscribe name subscription) (·.Clears name)

/-! ### Publishing -/

theorem accepts_iff {subscription : Subscription σ} {level : Level} :
    accepts subscription level = true ↔
      ∀ least, subscription.least = some least → least ≤ level := by
  unfold accepts
  cases subscription.least with
  | none => simp
  | some least => simp

theorem handOut_eq (event : Event π) (subscriptions : List (Subscription σ)) :
    let accepted := subscriptions.filter (accepts · event.level)
    handOut event subscriptions =
      (accepted.length, accepted.map fun subscription => (subscription.subscriber, event)) := by
  induction subscriptions with
  | nil => rfl
  | cons subscription rest ih =>
      simp only [handOut, ih, List.filter_cons]
      split <;> rfl

/-- The event is handed to its receivers, and the answer is their number. -/
theorem publish_eq (bus : Bus σ) (event : Event π) :
    bus.publish event =
      ((bus.receivers event).length, (bus.receivers event).map (·, event)) := by
  unfold publish receivers
  split
  · simp [handOut_eq]
  · rfl

theorem getElem?_answers (bus : Bus σ) (requests : List (Request σ π)) (time : Nat) :
    (bus.answers requests)[time]? =
      requests[time]?.map (bus.afterAll (requests.take time)).answer := by
  induction requests generalizing bus time with
  | nil => rfl
  | cons request rest ih =>
      cases time with
      | zero => rfl
      | succ time => exact ih (bus.after request) time

/-! ### The least level -/

theorem least_after (bus : Bus σ) (request : Request σ π) :
    (bus.after request).least = request.level?.getD bus.least := by
  cases request with
  | clear name => cases name <;> rfl
  | _ => rfl

theorem least_afterAll (bus : Bus σ) (requests : List (Request σ π)) :
    (bus.afterAll requests).least = leastAfter bus.least requests := by
  induction requests using List.reverseRecOn with
  | nil => rfl
  | append_singleton requests request ih =>
      rw [afterAll_concat, least_after, ih, leastAfter, leastAfter, List.filterMap_append]
      cases set : request.level? with
      | none => simp [set]
      | some level => simp [set]

/-! ### Live subscriptions -/

theorem subscribers_subscribe (bus : Bus σ) (name other : String)
    (subscription : Subscription σ) : (bus.subscribe name subscription).subscribers other =
      if other = name then bus.subscribers name ++ [subscription] else bus.subscribers other := by
  unfold subscribers subscribe
  rw [Dict.get?_insert]
  split <;> rfl

theorem subscribers_clear (bus : Bus σ) (name other : String) :
    (bus.clear (some name)).subscribers other =
      if other = name then [] else bus.subscribers other := by
  unfold subscribers clear
  rw [Dict.get?_erase]
  split <;> rfl

/-- A request drops the subscriptions for a name, adds one to them, or leaves them alone. -/
theorem after_cases (bus : Bus σ) (request : Request σ π) (name : String) :
    (request.Clears name ∧ (bus.after request).subscribers name = []) ∨
    (∃ subscription, request = .subscribe name subscription ∧
      (bus.after request).subscribers name = bus.subscribers name ++ [subscription]) ∨
    (¬ request.Clears name ∧ (∀ subscription, request ≠ .subscribe name subscription) ∧
      (bus.after request).subscribers name = bus.subscribers name) := by
  cases request with
  | subscribe other subscription =>
      by_cases same : other = name
      · subst same
        exact .inr (.inl ⟨subscription, rfl, by simp [after, subscribers_subscribe]⟩)
      · refine .inr (.inr ⟨id, by simp [same], ?_⟩)
        simp [after, subscribers_subscribe, Ne.symm same]
  | clear cleared =>
      cases cleared with
      | none => exact .inl ⟨trivial, rfl⟩
      | some other =>
          by_cases same : other = name
          · exact .inl ⟨same, by simp [after, subscribers_clear, same]⟩
          · exact .inr (.inr ⟨same, by simp, by simp [after, subscribers_clear, Ne.symm same]⟩)
  | setLeast level => exact .inr (.inr ⟨id, by simp, rfl⟩)
  | publish event => exact .inr (.inr ⟨id, by simp, rfl⟩)

/-- The bus lists the live subscriptions for a name, in the order in which they were made. -/
theorem subscribers_afterAll (start : Level) (requests : List (Request σ π)) (name : String) :
    ∃ live : List (Nat × Subscription σ), live.Pairwise (fun a b => a.1 < b.1) ∧
      (∀ time subscription, (time, subscription) ∈ live ↔ Live requests name time subscription) ∧
      (afterAll { least := start } requests).subscribers name = live.map Prod.snd := by
  induction requests using List.reverseRecOn with
  | nil =>
      refine ⟨[], .nil, fun time subscription => iff_of_false List.not_mem_nil ?_, rfl⟩
      exact fun live => Nat.not_lt_zero time live.lt_length
  | append_singleton requests request ih =>
      obtain ⟨live, ordered, listed, lists⟩ := ih
      rw [afterAll_concat]
      rcases after_cases (afterAll { least := start } requests) request name with
        ⟨clears, now⟩ | ⟨subscription, rfl, now⟩ | ⟨uncleared, other, now⟩
      · refine ⟨[], .nil, fun time subscription => iff_of_false List.not_mem_nil ?_, now⟩
        rw [Live, standing_concat]
        rintro (⟨-, uncleared⟩ | ⟨-, rfl⟩)
        · exact uncleared clears
        · exact clears
      · refine ⟨live ++ [(requests.length, subscription)], ?_, fun time made => ?_, ?_⟩
        · refine List.pairwise_append.mpr ⟨ordered, List.pairwise_singleton _ _, ?_⟩
          rintro ⟨time, earlier⟩ member _ new
          obtain rfl := List.mem_singleton.mp new
          exact ((listed time earlier).mp member).lt_length
        · rw [List.mem_append, listed, List.mem_singleton, Live, Live, standing_concat]
          simp [Request.Clears, eq_comm]
        · rw [now, lists, List.map_append]
          rfl
      · refine ⟨live, ordered, fun time subscription => ?_, now.trans lists⟩
        rw [listed, Live, Live, standing_concat]
        simp [uncleared, other]

/-- In every sequence of requests, from a bus that has no subscriptions yet, a published event is
handed to the subscriptions for its name that were made before and not cleared since, if they are
open to its level and the level is not below the least level of the bus at that time. Each of
them receives it once, in the order in which they were made, and the answer is their number. -/
theorem event_reaches_live_subscriptions (start : Level) (requests : List (Request σ π))
    {now : Nat} {event : Event π} (published : requests[now]? = some (.publish event)) :
    let past := requests.take now
    ∃ received : List (Nat × Subscription σ),
      received.Pairwise (fun a b => a.1 < b.1) ∧
      (∀ time subscription, (time, subscription) ∈ received ↔
        Live past event.name time subscription ∧
          (∀ least, subscription.least = some least → least ≤ event.level) ∧
          leastAfter start past ≤ event.level) ∧
      (answers { least := start } requests)[now]? =
        some (some (received.length,
          received.map fun made => (made.2.subscriber, event))) := by
  intro past
  obtain ⟨live, ordered, listed, lists⟩ := subscribers_afterAll start past event.name
  let receives (made : Nat × Subscription σ) : Bool :=
    leastAfter start past ≤ event.level && accepts made.2 event.level
  have receivers : (afterAll { least := start } past).receivers event =
      (live.filter receives).map fun made => made.2.subscriber := by
    rw [Bus.receivers, least_afterAll, lists]
    by_cases enough : leastAfter start past ≤ event.level
    · simp [receives, enough, List.filter_map, Function.comp_def]
    · simp [receives, enough]
  refine ⟨live.filter receives, ordered.filter _, fun time subscription => ?_, ?_⟩
  · rw [List.mem_filter, listed, Bool.and_eq_true, decide_eq_true_iff, accepts_iff]
    exact and_congr_right' and_comm
  · rw [getElem?_answers, published, Option.map_some, answer, publish_eq, receivers,
      List.length_map, List.map_map]
    rfl

/-- Subscriber 1 subscribes, is cleared with its event name and subscribes again; clearing another
name does not touch it. The second subscriber wants errors only. -/
theorem event_reaches_live_subscriptions_resubscribed :
    let event : Event String := { name := "note", level := .warning, payload := "late" }
    let requests : List (Request Nat String) :=
      [.subscribe "note" ⟨1, none⟩, .subscribe "other" ⟨1, none⟩, .clear (some "note"),
        .subscribe "note" ⟨2, some .error⟩, .subscribe "note" ⟨1, none⟩, .setLeast .info,
        .subscribe "note" ⟨3, some .warning⟩, .clear (some "other"), .publish event]
    requests[8]? = some (.publish event) ∧
      (answers { least := .error } requests)[8]? = some (some (2, [(1, event), (3, event)])) ∧
      ∃ received : List (Nat × Subscription Nat), received.Pairwise (fun a b => a.1 < b.1) ∧
        received.map (fun made => made.2.subscriber) = [1, 3] ∧
        ∀ made ∈ received, Live (requests.take 8) "note" made.1 made.2 := by
  intro event requests
  have answered : (answers { least := .error } requests)[8]? =
      some (some (2, [(1, event), (3, event)])) := rfl
  obtain ⟨received, ordered, live, same⟩ :=
    @event_reaches_live_subscriptions _ _ .error requests 8 event rfl
  refine ⟨rfl, answered, received, ordered, ?_, fun made member => ?_⟩
  · rw [answered] at same
    obtain ⟨-, handed⟩ := Prod.mk.inj (Option.some.inj (Option.some.inj same))
    have subscribers := congrArg (List.map Prod.fst) handed
    rw [List.map_map] at subscribers
    exact subscribers.symm
  · exact ((live made.1 made.2).mp member).1

end ModuleTyping.Bus
