import ClientRoster.Notice.Queue

/-!
# `ClientRoster.Proofs.Notice.Listening` — what a listener gets of what is offered

Notices are offered to a queue and taken from it, in any order of the two, and the listener may leave. A notice finds
the queue with or without room for it, and this alone decides whether it is lost: what the listener has taken and what
waits for it are together the notices that found room, in the order of the offers.

## Contents
- `NoticeQueue.eq_of_create`, `NoticeQueue.hasRoom`, `NoticeQueue.take`.
- `Listening`, `Listening.Event`, `next`, `after`: a queue over some time, with all that was offered to it.
- `Listening.Sound`, `sound_next`: what every event keeps; **`sound_after`**.
- `placed_eq_of_heard`, `placed_eq_log`: which notices found room while somebody listened, and when it was all of them.
- **`waiting_offerAll`**: what a queue holds from which nothing is taken.
- `after_follow`, `exists_after_followRun`: a listener that follows a run, as one more order of offers and looks.
-/

namespace ClientRoster

namespace NoticeQueue

/-- A queue that settings ask for is empty, and as large as they say. -/
theorem eq_of_create {s : Settings} {q : NoticeQueue} (h : create s = .ok q) : q = { capacity := s.capacity } := by
  unfold create at h
  split at h
  · cases h
  · split at h
    · exact (Except.ok.inj h).symm
    · cases h

/-- Is there a place for one more notice, and anybody to take it? -/
def hasRoom (q : NoticeQueue) : Bool := q.heard && q.waiting.length < q.capacity

/-- The listener takes the oldest of the notices that wait, so many of them as there are. -/
def take (q : NoticeQueue) (count : Nat) : List Notice × NoticeQueue :=
  (q.waiting.take count, { q with waiting := q.waiting.drop count })

theorem take_eq_drain {q : NoticeQueue} {count : Nat} (h : q.waiting.length ≤ count) : q.take count = q.drain := by
  unfold take drain
  rw [List.take_of_length_le h, List.drop_of_length_le h]

theorem offer_of_hasRoom {q : NoticeQueue} (h : q.hasRoom = true) (notice : Notice) :
    q.offer notice = { q with waiting := q.waiting ++ [notice] } := if_pos h

theorem offer_of_not_hasRoom {q : NoticeQueue} (h : q.hasRoom = false) (notice : Notice) : q.offer notice = q := by
  apply if_neg
  intro hroom
  rw [hasRoom, hroom] at h
  cases h

/-- While somebody listens, only a full queue has no room. -/
theorem hasRoom_iff {q : NoticeQueue} (hheard : q.heard = true) (hbounded : q.waiting.length ≤ q.capacity) :
    q.hasRoom = true ↔ q.waiting.length ≠ q.capacity := by
  rw [hasRoom, hheard, Bool.true_and, decide_eq_true_eq]
  omega

/-- **A queue that is not read takes the first notices, as many as it has room for.** -/
theorem waiting_offerAll {q : NoticeQueue} (hheard : q.heard = true) (notices : List Notice) :
    (q.offerAll notices).waiting = q.waiting ++ notices.take (q.capacity - q.waiting.length) := by
  induction notices generalizing q with
  | nil => simp [offerAll]
  | cons notice rest ih =>
    have hstep : q.offerAll (notice :: rest) = (q.offer notice).offerAll rest := rfl
    rw [hstep]
    cases hroom : q.hasRoom with
    | true =>
      have hless : q.waiting.length < q.capacity := by simpa [hasRoom, hheard] using hroom
      -- this notice takes one of the places that are left
      obtain ⟨places, hplaces⟩ := Nat.exists_eq_add_of_lt hless
      have hleft : q.capacity - q.waiting.length = places + 1 := by omega
      have hnext : q.capacity - (q.waiting ++ [notice]).length = places := by
        rw [List.length_append, List.length_singleton]
        omega
      have hrest := ih (q := { q with waiting := q.waiting ++ [notice] }) hheard
      rw [offer_of_hasRoom hroom, hrest, hnext, hleft, List.take_succ_cons, List.append_assoc]
      rfl
    | false =>
      have hfull : q.capacity - q.waiting.length = 0 := by
        have hmore : ¬ q.waiting.length < q.capacity := by simpa [hasRoom, hheard] using hroom
        omega
      rw [offer_of_not_hasRoom hroom, ih hheard, hfull, List.take_zero, List.take_zero]

end NoticeQueue

/-! ## A queue over some time -/

/-- A queue, and what has become of it. -/
structure Listening where
  queue : NoticeQueue
  /-- What the listener took, in order. -/
  taken : List Notice := []
  /-- What was offered, in order, each with the queue that it found. -/
  offers : List (Notice × NoticeQueue) := []

/-- What may happen to a queue. -/
inductive Listening.Event
  | offer (notice : Notice)
  | take (count : Nat)
  | leave

/-- The notice that is offered. -/
def Listening.Event.notice? : Listening.Event → Option Notice
  | offer notice => some notice
  | take _ | leave => none

namespace Listening

/-- A queue after one event. -/
def next (l : Listening) : Event → Listening
  | .offer notice => { l with queue := l.queue.offer notice, offers := l.offers ++ [(notice, l.queue)] }
  | .take count => { l with queue := (l.queue.take count).2, taken := l.taken ++ (l.queue.take count).1 }
  | .leave => { l with queue := l.queue.hangUp }

/-- A queue after some events. -/
def after (l : Listening) (events : List Event) : Listening := events.foldl next l

/-- All notices that were offered. -/
def log (l : Listening) : List Notice := l.offers.map Prod.fst

/-- The notices that found room. -/
def placed (l : Listening) : List Notice := (l.offers.filter fun o => o.2.hasRoom).map Prod.fst

/-- What is true of a queue at any time. -/
structure Sound (capacity : Nat) (l : Listening) : Prop where
  made : l.queue.capacity = capacity
  bounded : l.queue.waiting.length ≤ capacity
  found : ∀ o ∈ l.offers, o.2.capacity = capacity ∧ o.2.waiting.length ≤ capacity
  /-- Nobody comes back who has left. -/
  heard : l.queue.heard = true → ∀ o ∈ l.offers, o.2.heard = true
  /-- Nothing is lost of what found room, as long as somebody listens. -/
  kept : l.queue.heard = true → l.taken ++ l.queue.waiting = l.placed
  /-- Nothing is taken, and nothing waits, that found no room. -/
  taken : l.taken ++ l.queue.waiting <+: l.placed

variable {l : Listening} {capacity : Nat}

theorem placed_offer (l : Listening) (notice : Notice) :
    (l.next (.offer notice)).placed = l.placed ++ if l.queue.hasRoom then [notice] else [] := by
  have hoffers : (l.next (.offer notice)).offers = l.offers ++ [(notice, l.queue)] := rfl
  unfold placed
  rw [hoffers, List.filter_append, List.map_append]
  cases hroom : l.queue.hasRoom with
  | true => simp [hroom]
  | false => simp [hroom]

/-- What holds of every offer so far, and of the next one, holds of every offer then. -/
theorem forall_offers_append {P : Notice × NoticeQueue → Prop} (h : ∀ o ∈ l.offers, P o) {notice : Notice}
    (hlast : P (notice, l.queue)) : ∀ o ∈ l.offers ++ [(notice, l.queue)], P o := by
  intro o ho
  rcases List.mem_append.mp ho with ho | ho
  · exact h o ho
  · obtain rfl := List.mem_singleton.mp ho
    exact hlast

/-- A notice that finds room waits behind the others. -/
theorem sound_offer_of_hasRoom (h : l.Sound capacity) (notice : Notice) (hroom : l.queue.hasRoom = true) :
    (l.next (.offer notice)).Sound capacity := by
  have hnext : l.next (.offer notice) =
      ⟨{ l.queue with waiting := l.queue.waiting ++ [notice] }, l.taken, l.offers ++ [(notice, l.queue)]⟩ := by
    rw [next, NoticeQueue.offer_of_hasRoom hroom]
  obtain ⟨hlistens, hless⟩ : l.queue.heard = true ∧ l.queue.waiting.length < l.queue.capacity := by
    simpa [NoticeQueue.hasRoom] using hroom
  have hkept : l.taken ++ (l.queue.waiting ++ [notice]) = (l.next (.offer notice)).placed := by
    rw [placed_offer, hroom, if_pos rfl, ← h.kept hlistens, List.append_assoc]
  rw [hnext] at hkept ⊢
  constructor
  case made => exact h.made
  case bounded =>
    show (l.queue.waiting ++ [notice]).length ≤ capacity
    rw [List.length_append, ← h.made]
    exact hless
  case found => exact forall_offers_append h.found ⟨h.made, h.bounded⟩
  case heard =>
    intro _
    exact forall_offers_append (h.heard hlistens) hlistens
  case kept => exact fun _ => hkept
  case taken => exact hkept ▸ List.prefix_refl _

/-- A notice that finds no room is lost. -/
theorem sound_offer_of_not_hasRoom (h : l.Sound capacity) (notice : Notice) (hroom : l.queue.hasRoom = false) :
    (l.next (.offer notice)).Sound capacity := by
  have hnext : l.next (.offer notice) = ⟨l.queue, l.taken, l.offers ++ [(notice, l.queue)]⟩ := by
    rw [next, NoticeQueue.offer_of_not_hasRoom hroom]
  have hplaced : (l.next (.offer notice)).placed = l.placed := by
    rw [placed_offer, hroom]
    exact List.append_nil _
  rw [hnext] at hplaced ⊢
  constructor
  case made => exact h.made
  case bounded => exact h.bounded
  case found => exact forall_offers_append h.found ⟨h.made, h.bounded⟩
  case heard =>
    intro hlistens
    exact forall_offers_append (h.heard hlistens) hlistens
  case kept =>
    rw [hplaced]
    exact h.kept
  case taken =>
    rw [hplaced]
    exact h.taken

theorem sound_take (h : l.Sound capacity) (count : Nat) : (l.next (.take count)).Sound capacity := by
  have hsame : (l.taken ++ l.queue.waiting.take count) ++ l.queue.waiting.drop count = l.taken ++ l.queue.waiting := by
    rw [List.append_assoc, List.take_append_drop]
  constructor
  case made => exact h.made
  case bounded =>
    show (l.queue.waiting.drop count).length ≤ capacity
    rw [List.length_drop]
    exact Nat.le_trans (Nat.sub_le _ _) h.bounded
  case found => exact h.found
  case heard => exact h.heard
  case kept =>
    intro hlistens
    exact hsame.trans (h.kept hlistens)
  case taken =>
    show (l.taken ++ l.queue.waiting.take count) ++ l.queue.waiting.drop count <+: l.placed
    rw [hsame]
    exact h.taken

theorem sound_leave (h : l.Sound capacity) : (l.next .leave).Sound capacity := by
  constructor
  case made => exact h.made
  case bounded => exact Nat.zero_le capacity
  case found => exact h.found
  case heard =>
    intro hlistens
    cases hlistens
  case kept =>
    intro hlistens
    cases hlistens
  case taken =>
    -- what waited is lost, and what was taken is still the front of what found room
    show l.taken ++ [] <+: l.placed
    rw [List.append_nil]
    exact (List.prefix_append l.taken l.queue.waiting).trans h.taken

/-- **Every event keeps a queue sound.** -/
theorem sound_next (h : l.Sound capacity) (event : Event) : (l.next event).Sound capacity := by
  cases event with
  | offer notice =>
    cases hroom : l.queue.hasRoom with
    | true => exact sound_offer_of_hasRoom h notice hroom
    | false => exact sound_offer_of_not_hasRoom h notice hroom
  | take count => exact sound_take h count
  | leave => exact sound_leave h

theorem sound_after (h : l.Sound capacity) (events : List Event) : (l.after events).Sound capacity := by
  induction events generalizing l with
  | nil => exact h
  | cons event rest ih => exact ih (sound_next h event)

/-- A queue is sound before anything has happened to it. -/
theorem sound_start {q : NoticeQueue} (h : q.waiting = []) : (⟨q, [], []⟩ : Listening).Sound q.capacity := by
  constructor
  case made => rfl
  case bounded => simp [h]
  case found => simp
  case heard => simp
  case kept => simp [h, placed]
  case taken => simp [h]

/-! ## What a listener gets -/

theorem placed_sublist (l : Listening) : l.placed.Sublist l.log := List.filter_sublist.map Prod.fst

/-- **While somebody listens, the notices that get no place are those that find the queue full.** -/
theorem placed_eq_of_heard (h : l.Sound capacity) (hheard : l.queue.heard = true) :
    l.placed = (l.offers.filter fun o => decide (o.2.waiting.length ≠ capacity)).map Prod.fst := by
  unfold placed
  congr 1
  apply List.filter_congr
  intro o ho
  obtain ⟨hcapacity, hbounded⟩ := h.found o ho
  have hroom := NoticeQueue.hasRoom_iff (h.heard hheard o ho) (hcapacity ▸ hbounded)
  rw [hcapacity] at hroom
  rw [Bool.eq_iff_iff, hroom, decide_eq_true_eq]

/-- Nothing is lost when no notice finds the queue full. -/
theorem placed_eq_log (h : l.Sound capacity) (hheard : l.queue.heard = true)
    (hroom : ∀ o ∈ l.offers, o.2.waiting.length < capacity) : l.placed = l.log := by
  have hall : (l.offers.filter fun o => decide (o.2.waiting.length ≠ capacity)) = l.offers := by
    rw [List.filter_eq_self]
    intro o ho
    exact decide_eq_true (Nat.ne_of_lt (hroom o ho))
  rw [placed_eq_of_heard h hheard, hall]
  rfl

/-! ## Offers only -/

theorem after_append (l : Listening) (front back : List Event) : l.after (front ++ back) = (l.after front).after back :=
  List.foldl_append

theorem queue_after_offers (l : Listening) (notices : List Notice) :
    (l.after (notices.map .offer)).queue = l.queue.offerAll notices := by
  induction notices generalizing l with
  | nil => rfl
  | cons notice rest ih => exact ih (l.next (.offer notice))

theorem taken_after_offers (l : Listening) (notices : List Notice) :
    (l.after (notices.map .offer)).taken = l.taken := by
  induction notices generalizing l with
  | nil => rfl
  | cons notice rest ih => exact ih (l.next (.offer notice))

/-- All that is offered is logged. -/
theorem log_after (l : Listening) (events : List Event) :
    (l.after events).log = l.log ++ events.filterMap Event.notice? := by
  induction events generalizing l with
  | nil => exact (List.append_nil _).symm
  | cons event rest ih =>
    have hlog : (l.next event).log = l.log ++ event.notice?.toList := by
      cases event with
      | offer notice => exact List.map_append
      | take count => exact (List.append_nil _).symm
      | leave => exact (List.append_nil _).symm
    show ((l.next event).after rest).log = l.log ++ (event :: rest).filterMap Event.notice?
    rw [ih, hlog, List.append_assoc]
    cases event <;> rfl

theorem filterMap_notice?_offers (notices : List Notice) :
    (notices.map Event.offer).filterMap Event.notice? = notices := by
  rw [List.filterMap_map]
  exact List.filterMap_some

theorem log_after_offers (l : Listening) (notices : List Notice) :
    (l.after (notices.map .offer)).log = l.log ++ notices := by
  rw [log_after, filterMap_notice?_offers]

/-! ## A look at the end of each phase -/

/-- What happens to a queue in a phase at whose end the listener looks, and takes all that waits if it takes anything.
-/
def phaseEvents (room : Nat) (taking : Bool) (phase : Phase) : List Event :=
  phase.notices.map .offer ++ [.take (if taking then room else 0)]

/-- What the listener gets at the end of a phase, and the queue that it leaves. -/
theorem after_phaseEvents (h : l.Sound capacity) (taking : Bool) (phase : Phase) :
    let queue := l.queue.offerAll phase.notices
    let look := if taking then queue.drain else ([], queue)
    (l.after (phaseEvents capacity taking phase)).queue = look.2 ∧
      (l.after (phaseEvents capacity taking phase)).taken = l.taken ++ look.1 := by
  intro queue look
  have hqueue : (l.after (phase.notices.map .offer)).queue = queue := queue_after_offers l phase.notices
  have hbounded : queue.waiting.length ≤ capacity := hqueue ▸ (sound_after h (phase.notices.map .offer)).bounded
  have hlook : queue.take (if taking then capacity else 0) = look := by
    cases taking with
    | true => exact NoticeQueue.take_eq_drain hbounded
    | false => rfl
  rw [phaseEvents, after_append, ← hlook, ← hqueue]
  constructor
  · rfl
  · rw [← taken_after_offers l phase.notices]
    rfl

/-- **What a listener gets who looks at the end of each phase** is what it gets from the same offers and looks, one
event after the other. -/
theorem after_follow (h : l.Sound capacity) (taking : Bool) (phases : List Phase) :
    (l.after (phases.flatMap (phaseEvents capacity taking))).queue = (l.queue.follow taking phases).2 ∧
      (l.after (phases.flatMap (phaseEvents capacity taking))).taken =
        l.taken ++ (l.queue.follow taking phases).1.flatMap Prod.fst := by
  induction phases generalizing l with
  | nil => exact ⟨rfl, (List.append_nil _).symm⟩
  | cons phase rest ih =>
    obtain ⟨hqueue, htaken⟩ := after_phaseEvents h taking phase
    obtain ⟨hrestQueue, hrestTaken⟩ := ih (sound_after h (phaseEvents capacity taking phase))
    rw [List.flatMap_cons, after_append, hrestQueue, hrestTaken, hqueue, htaken]
    exact ⟨rfl, List.append_assoc _ _ _⟩

theorem filterMap_notice?_phases (room : Nat) (taking : Bool) (phases : List Phase) :
    (phases.flatMap (phaseEvents room taking)).filterMap Event.notice? = phases.flatMap Phase.notices := by
  rw [List.filterMap_flatMap]
  congr 1
  funext phase
  rw [phaseEvents, List.filterMap_append, filterMap_notice?_offers]
  exact List.append_nil _

/-- **A listener that follows a run** looks in one order among the others at a queue that is offered all its notices. -/
theorem exists_after_followRun {q : NoticeQueue} (hq : q.waiting = []) (taking : Bool) (run : Run) :
    ∃ events : List Event, events.filterMap Event.notice? = run.notices ∧
      ((⟨q, [], []⟩ : Listening).after events).taken = (q.followRun taking run).1.flatMap Prod.fst := by
  have hstart := sound_start hq
  have hsound := sound_after hstart (run.waiting.flatMap (phaseEvents q.capacity taking))
  obtain ⟨hqueue, htaken⟩ := after_follow hstart taking run.waiting
  obtain ⟨-, hlast⟩ := after_follow hsound true [run.closing]
  refine ⟨run.waiting.flatMap (phaseEvents q.capacity taking) ++ [run.closing].flatMap (phaseEvents q.capacity true),
    ?_, ?_⟩
  · rw [List.filterMap_append, filterMap_notice?_phases, filterMap_notice?_phases, ← List.flatMap_append]
    show run.phases.flatMap Phase.notices = (run.phases.flatMap Phase.steps).filterMap Step.notice
    rw [List.filterMap_flatMap]
    rfl
  · rw [after_append, hlast, htaken, hqueue, List.nil_append, ← List.flatMap_append]
    rfl

end Listening

end ClientRoster
