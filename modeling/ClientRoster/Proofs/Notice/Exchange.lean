import ClientRoster.Proofs.Intake.Paced
import ClientRoster.Proofs.Intake.Purge
import ClientRoster.Proofs.Notice.Listening

/-!
# `ClientRoster.Proofs.Notice.Exchange` — an intake and its listener

The intake and whoever listens to it go on side by side: between two turns of the intake, the listener may take of the
notices that wait, as many and as often as it likes, or leave. Nothing that the listener does is anything that the
intake sees. So in whatever order the two go on, the intake comes to the end of its run in the same number of turns,
with the same roster, the same failure and the same notices; what differs is only which notices the listener gets.

## Contents
- `Exchange`, `Exchange.Move`, `next`, `after`: an intake and its listener, one move after the other.
- `Exchange.Keeps`, `keeps_next`: what every move keeps; **`keeps_after`**.
- `Keeps.ended_iff`, `Keeps.eq_of_ended`: when the intake has ended, and with what.
- `taken_unread`: a listener that looks only when the run is over.
- `exists_moves`, `exists_moves_followRun`: any order of offers and looks is an order of moves.
- **`listener_run`**: every order of moves.
-/

namespace ClientRoster

/-- An intake, and the queue between it and its listener. -/
structure Exchange where
  progress : Progress
  listening : Listening

namespace Exchange

/-- Who goes on, and how. -/
inductive Move
  /-- The intake makes a turn. -/
  | turn
  /-- The listener takes notices. -/
  | take (count : Nat)
  /-- The listener leaves. -/
  | leave
  deriving DecidableEq, Repr

variable (p : SourcePolicy) (feed : Feed) (reason : StopReason)

/-- The exchange after one move. -/
def next (e : Exchange) : Move → Exchange
  | .turn =>
    let (notice?, progress) := Intake.turn p feed reason e.progress
    ⟨progress, e.listening.after (notice?.toList.map .offer)⟩
  | .take count => { e with listening := e.listening.next (.take count) }
  | .leave => { e with listening := e.listening.next .leave }

/-- The exchange after some moves. -/
def after (e : Exchange) (moves : List Move) : Exchange := moves.foldl (next p feed reason) e

/-- The exchange before anything has happened. -/
def start (q : NoticeQueue) (r : Roster) : Exchange := ⟨⟨.idle, r⟩, { queue := q }⟩

/-- What is true after some moves, so many of them turns. -/
structure Keeps (capacity : Nat) (run : Run) (turns : Nat) (e : Exchange) : Prop where
  /-- What was offered and what is still to come are the notices of the run. -/
  log : e.listening.log ++ (Intake.toCome p feed reason e.progress).filterMap Step.notice = run.notices
  ending : Intake.ending p feed reason e.progress = (run.roster, run.failure)
  left : Intake.turnsLeft p feed reason e.progress = run.steps.length + 1 - turns
  sound : e.listening.Sound capacity

variable {p feed reason} {e : Exchange} {capacity turns : Nat} {run : Run}

theorem keeps_start (p : SourcePolicy) (feed : Feed) (reason : StopReason) {q : NoticeQueue} (hq : q.waiting = [])
    (r : Roster) :
    (start q r).Keeps p feed reason q.capacity (Intake.run p r feed reason) 0 where
  log := Intake.notices_idle r
  ending := Intake.ending_idle r
  left := Intake.turnsLeft_idle r
  sound := Listening.sound_start hq

/-- **A turn of the intake** offers the next notice, and brings the end of the run nearer. -/
theorem keeps_turn (h : e.Keeps p feed reason capacity run turns) :
    (e.next p feed reason .turn).Keeps p feed reason capacity run (turns + 1) := by
  constructor
  case log =>
    have hlog : (e.next p feed reason .turn).listening.log =
        e.listening.log ++ (Intake.turn p feed reason e.progress).1.toList := Listening.log_after_offers _ _
    have htoCome : (e.next p feed reason .turn).progress = (Intake.turn p feed reason e.progress).2 := rfl
    rw [hlog, htoCome, List.append_assoc, ← Intake.notices_turn, h.log]
  case ending => exact (Intake.ending_turn e.progress).trans h.ending
  case left =>
    refine (Intake.turnsLeft_turn e.progress).trans ?_
    rw [h.left]
    omega
  case sound => exact Listening.sound_after h.sound _

/-- **What the listener does** is nothing to the intake. -/
theorem keeps_listener (h : e.Keeps p feed reason capacity run turns) {event : Listening.Event}
    (hlog : (e.listening.next event).log = e.listening.log) :
    (⟨e.progress, e.listening.next event⟩ : Exchange).Keeps p feed reason capacity run turns where
  log := by
    rw [hlog]
    exact h.log
  ending := h.ending
  left := h.left
  sound := Listening.sound_next h.sound event

theorem keeps_next (h : e.Keeps p feed reason capacity run turns) (move : Move) :
    (e.next p feed reason move).Keeps p feed reason capacity run (turns + [move].count .turn) := by
  cases move with
  | turn => exact keeps_turn h
  | take count => exact keeps_listener h rfl
  | leave => exact keeps_listener h rfl

theorem keeps_after (h : e.Keeps p feed reason capacity run turns) (moves : List Move) :
    (e.after p feed reason moves).Keeps p feed reason capacity run (turns + moves.count .turn) := by
  induction moves generalizing e turns with
  | nil => exact h
  | cons move rest ih =>
    have hcount : turns + (move :: rest).count .turn = turns + [move].count .turn + rest.count .turn := by
      rw [Nat.add_assoc, ← List.count_append]
      rfl
    rw [hcount]
    exact ih (keeps_next h move)

/-! ## The end of the run -/

/-- The intake has ended when it has made one turn more than the run has steps. -/
theorem Keeps.ended_iff (h : e.Keeps p feed reason capacity run turns) :
    (∃ failure, e.progress.stage = .ended failure) ↔ run.steps.length < turns := by
  rw [← Intake.turnsLeft_eq_zero_iff, h.left]
  omega

/-- **An intake that has ended has ended as its run does.** -/
theorem Keeps.eq_of_ended (h : e.Keeps p feed reason capacity run turns) {failure : Option Failure}
    (hended : e.progress.stage = .ended failure) :
    e.progress.roster = run.roster ∧ failure = run.failure ∧ e.listening.log = run.notices := by
  obtain ⟨⟨stage, r⟩, listening⟩ := e
  obtain rfl : stage = .ended failure := hended
  have hlog : listening.log ++ [] = run.notices := h.log
  have hboth : (r, failure) = (run.roster, run.failure) := h.ending
  rw [List.append_nil] at hlog
  exact ⟨congrArg Prod.fst hboth, congrArg Prod.snd hboth, hlog⟩

/-! ## A listener that does not look -/

theorem listening_after_turns (e : Exchange) (n : Nat) :
    ∃ notices : List Notice, (e.after p feed reason (List.replicate n .turn)).listening =
      e.listening.after (notices.map .offer) := by
  induction n generalizing e with
  | zero => exact ⟨[], rfl⟩
  | succ n ih =>
    obtain ⟨notices, hnotices⟩ := ih (e.next p feed reason .turn)
    refine ⟨(Intake.turn p feed reason e.progress).1.toList ++ notices, ?_⟩
    rw [List.map_append, Listening.after_append]
    exact hnotices

theorem after_append (e : Exchange) (front back : List Move) :
    e.after p feed reason (front ++ back) = (e.after p feed reason front).after p feed reason back :=
  List.foldl_append

/-- What waits for a listener that has not looked yet are the first of the notices that were offered. -/
theorem unread_after_turns (p : SourcePolicy) (feed : Feed) (reason : StopReason) {q : NoticeQueue}
    (hq : q.waiting = []) (hheard : q.heard = true) (r : Roster) (n : Nat) :
    let l := ((start q r).after p feed reason (List.replicate n .turn)).listening
    l.taken = [] ∧ l.queue.waiting = l.log.take q.capacity := by
  intro l
  obtain ⟨notices, hl⟩ : ∃ notices : List Notice, l = (⟨q, [], []⟩ : Listening).after (notices.map .offer) :=
    listening_after_turns (start q r) n
  rw [hl, Listening.taken_after_offers, Listening.queue_after_offers, Listening.log_after_offers,
    NoticeQueue.waiting_offerAll hheard, hq]
  exact ⟨rfl, rfl⟩

/-- **A listener that looks when the run is over** finds the first notices of the run, as many as there was room for. -/
theorem taken_unread {q : NoticeQueue} (hq : q.waiting = []) (hheard : q.heard = true) (r : Roster) {n count : Nat}
    (hn : (Intake.run p r feed reason).steps.length < n) (hcount : q.capacity ≤ count) :
    ((start q r).after p feed reason (List.replicate n .turn ++ [.take count])).listening.taken =
      (Intake.run p r feed reason).notices.take q.capacity := by
  obtain ⟨htaken, hwaiting⟩ := unread_after_turns p feed reason hq hheard r n
  have hkeeps : Keeps p feed reason q.capacity (Intake.run p r feed reason) n
      ((start q r).after p feed reason (List.replicate n .turn)) := by
    have h := keeps_after (keeps_start p feed reason hq r) (List.replicate n .turn)
    rwa [Nat.zero_add, List.count_replicate_self] at h
  obtain ⟨failure, hended⟩ := hkeeps.ended_iff.mpr hn
  obtain ⟨-, -, hlog⟩ := hkeeps.eq_of_ended hended
  -- there is room in one look for all that waits
  have hfits := Nat.le_trans hkeeps.sound.bounded hcount
  rw [after_append]
  show _ ++ List.take count _ = _
  rw [htaken, List.nil_append, List.take_of_length_le hfits, hwaiting, hlog]

/-! ## Every order is possible -/

/-- The notices that are still to come. -/
def noticesToCome (p : SourcePolicy) (feed : Feed) (reason : StopReason) (e : Exchange) : List Notice :=
  (Intake.toCome p feed reason e.progress).filterMap Step.notice

/-- A turn offers the first of the notices that are to come, or none. -/
theorem noticesToCome_turn (p : SourcePolicy) (feed : Feed) (reason : StopReason) (e : Exchange) :
    noticesToCome p feed reason e =
      (Intake.turn p feed reason e.progress).1.toList ++ noticesToCome p feed reason (e.next p feed reason .turn) :=
  Intake.notices_turn e.progress

theorem listening_turn (e : Exchange) :
    (e.next p feed reason .turn).listening =
      e.listening.after ((Intake.turn p feed reason e.progress).1.toList.map .offer) := rfl

theorem turnsLeft_next {e : Exchange} {left : Nat} (h : Intake.turnsLeft p feed reason e.progress = left + 1) :
    Intake.turnsLeft p feed reason (e.next p feed reason .turn).progress = left := by
  refine (Intake.turnsLeft_turn e.progress).trans ?_
  rw [h]
  rfl

/-- With no notice to come, an intake ends in silence. -/
theorem exists_turns_ended (e : Exchange) (h : noticesToCome p feed reason e = []) :
    ∃ n, (e.after p feed reason (List.replicate n .turn)).listening = e.listening ∧
      ∃ failure, (e.after p feed reason (List.replicate n .turn)).progress.stage = .ended failure := by
  induction hleft : Intake.turnsLeft p feed reason e.progress generalizing e with
  | zero => exact ⟨0, rfl, Intake.turnsLeft_eq_zero_iff.mp hleft⟩
  | succ left ih =>
    rw [noticesToCome_turn, List.append_eq_nil_iff] at h
    obtain ⟨n, hlistening, hended⟩ := ih (e.next p feed reason .turn) h.2 (turnsLeft_next hleft)
    refine ⟨n + 1, ?_, hended⟩
    refine hlistening.trans ?_
    rw [listening_turn, h.1]
    rfl

/-- With a notice to come, an intake offers it after some turns, and nothing before it. -/
theorem exists_turns_offer (e : Exchange) {notice : Notice} {rest : List Notice}
    (h : noticesToCome p feed reason e = notice :: rest) :
    ∃ n, (e.after p feed reason (List.replicate n .turn)).listening = e.listening.next (.offer notice) ∧
      noticesToCome p feed reason (e.after p feed reason (List.replicate n .turn)) = rest := by
  induction hleft : Intake.turnsLeft p feed reason e.progress generalizing e with
  | zero =>
    -- nothing comes of an intake that has ended
    obtain ⟨failure, hended⟩ := Intake.turnsLeft_eq_zero_iff.mp hleft
    rw [noticesToCome, Intake.toCome, hended] at h
    cases h
  | succ left ih =>
    have hturn := noticesToCome_turn p feed reason e
    rw [h] at hturn
    cases hmade : (Intake.turn p feed reason e.progress).1 with
    | none =>
      rw [hmade] at hturn
      obtain ⟨n, hlistening, hrest⟩ := ih (e.next p feed reason .turn) hturn.symm (turnsLeft_next hleft)
      refine ⟨n + 1, hlistening.trans ?_, hrest⟩
      rw [listening_turn, hmade]
      rfl
    | some made =>
      rw [hmade] at hturn
      obtain ⟨rfl, hrest⟩ := List.cons.inj hturn
      refine ⟨1, ?_, hrest.symm⟩
      show (e.next p feed reason .turn).listening = _
      rw [listening_turn, hmade]
      rfl

/-- **Any order of offers and looks is an order of moves,** as long as the offers are those of the intake. -/
theorem exists_moves (e : Exchange) {events : List Listening.Event}
    (h : noticesToCome p feed reason e = events.filterMap Listening.Event.notice?) :
    ∃ moves, (e.after p feed reason moves).listening = e.listening.after events ∧
      ∃ failure, (e.after p feed reason moves).progress.stage = .ended failure := by
  induction events generalizing e with
  | nil =>
    obtain ⟨n, hlistening, hended⟩ := exists_turns_ended e h
    exact ⟨_, hlistening, hended⟩
  | cons event rest ih =>
    cases event with
    | offer notice =>
      obtain ⟨n, hlistening, hrest⟩ := exists_turns_offer e h
      obtain ⟨moves, hmoves, hended⟩ := ih _ hrest
      refine ⟨List.replicate n .turn ++ moves, ?_, ?_⟩
      · rw [after_append, hmoves, hlistening]
        rfl
      · rw [after_append]
        exact hended
    | take count =>
      obtain ⟨moves, hmoves, hended⟩ := ih (e.next p feed reason (.take count)) h
      exact ⟨.take count :: moves, hmoves, hended⟩
    | leave =>
      obtain ⟨moves, hmoves, hended⟩ := ih (e.next p feed reason .leave) h
      exact ⟨.leave :: moves, hmoves, hended⟩

/-- A listener that looks wherever the intake waits for its feed, and at the end, is one of those that there can be. -/
theorem exists_moves_followRun (p : SourcePolicy) (feed : Feed) (reason : StopReason) {q : NoticeQueue}
    (hq : q.waiting = []) (r : Roster) (taking : Bool) :
    ∃ moves, (∃ failure, ((start q r).after p feed reason moves).progress.stage = .ended failure) ∧
      ((start q r).after p feed reason moves).listening.taken =
        (q.followRun taking (Intake.run p r feed reason)).1.flatMap Prod.fst := by
  obtain ⟨events, hevents, htaken⟩ := Listening.exists_after_followRun hq taking (Intake.run p r feed reason)
  obtain ⟨moves, hlistening, hended⟩ := exists_moves (start q r) ((Intake.notices_idle r).trans hevents.symm)
  exact ⟨moves, hended, hlistening ▸ htaken⟩

/-! ## Every order of moves -/

/-- **The listener is nothing to the intake, and loses only what finds the queue full.** For any settings that there
is a queue for, any roster, any feed and any order in which the intake and its listener go on: the intake ends exactly
when it has had its turns, which are as many as its run asks for; it ends with the roster and the failure of its run,
and it has offered the notices of its run, in their order. The listener has taken a part of them, without another order
and none twice. As long as it has not left, what it has taken and what waits for it are those that did not find as many
waiting as there is room for, and it is all of them if none did. A listener that looks only at the end gets the first
ones. Any order of looks between the offers can come about, that of a listener that follows the run among them. -/
theorem listener_run {s : Settings} {q : NoticeQueue} (hq : NoticeQueue.create s = .ok q) (r : Roster) (feed : Feed)
    (reason : StopReason) :
    let run := Intake.run s.sources r feed reason
    (∀ moves, let e := (start q r).after s.sources feed reason moves
      ((∃ failure, e.progress.stage = .ended failure) ↔ run.steps.length < moves.count .turn) ∧
      (∀ failure, e.progress.stage = .ended failure →
        e.progress.roster = run.roster ∧ failure = run.failure ∧ e.listening.log = run.notices) ∧
      e.listening.log <+: run.notices ∧
      e.listening.taken.Sublist e.listening.log ∧
      (e.listening.queue.heard = true →
        (∀ o ∈ e.listening.offers, o.2.waiting.length ≤ s.capacity) ∧
        e.listening.taken ++ e.listening.queue.waiting =
          (e.listening.offers.filter fun o => decide (o.2.waiting.length ≠ s.capacity)).map Prod.fst ∧
        ((∀ o ∈ e.listening.offers, o.2.waiting.length < s.capacity) →
          e.listening.taken ++ e.listening.queue.waiting = e.listening.log))) ∧
    (∀ n count, run.steps.length < n → s.capacity ≤ count →
      ((start q r).after s.sources feed reason (List.replicate n .turn ++ [.take count])).listening.taken =
        run.notices.take s.capacity) ∧
    (∀ events : List Listening.Event, events.filterMap Listening.Event.notice? = run.notices →
      ∃ moves, let e := (start q r).after s.sources feed reason moves
        (∃ failure, e.progress.stage = .ended failure) ∧ e.listening = (start q r).listening.after events) ∧
    ∀ taking, ∃ moves, let e := (start q r).after s.sources feed reason moves
      (∃ failure, e.progress.stage = .ended failure) ∧
        e.listening.taken = (q.followRun taking run).1.flatMap Prod.fst := by
  intro run
  obtain rfl := NoticeQueue.eq_of_create hq
  refine ⟨?_, ?_, ?_, ?_⟩
  · intro moves e
    have hkeeps : e.Keeps s.sources feed reason s.capacity run (moves.count .turn) := by
      have h := keeps_after (keeps_start s.sources feed reason (q := { capacity := s.capacity }) rfl r) moves
      rwa [Nat.zero_add] at h
    refine ⟨hkeeps.ended_iff, fun failure => hkeeps.eq_of_ended, ?_, ?_, ?_⟩
    · rw [← hkeeps.log]
      exact List.prefix_append _ _
    · have htaken := (List.prefix_append e.listening.taken e.listening.queue.waiting).trans hkeeps.sound.taken
      exact htaken.sublist.trans (Listening.placed_sublist e.listening)
    · intro hheard
      rw [hkeeps.sound.kept hheard]
      refine ⟨fun o ho => (hkeeps.sound.found o ho).2, Listening.placed_eq_of_heard hkeeps.sound hheard, ?_⟩
      exact Listening.placed_eq_log hkeeps.sound hheard
  · intro n count hn hcount
    exact taken_unread rfl rfl r hn hcount
  · intro events hevents
    obtain ⟨moves, hlistening, hended⟩ := exists_moves (start _ r) ((Intake.notices_idle r).trans hevents.symm)
    exact ⟨moves, hended, hlistening⟩
  · intro taking
    exact exists_moves_followRun s.sources feed reason rfl r taking

/-- A listener that takes a single notice between the turns, and leaves before the end. -/
def shortStay : List Move :=
  [.turn, .turn, .turn, .take 1, .turn, .turn, .leave] ++ List.replicate 6 .turn

theorem listener_run_two_places :
    let a : Address := .v4 ⟨192, 0, 2, 10⟩
    let b : Address := .v4 ⟨192, 0, 2, 11⟩
    let s : Settings := { sources := { arp := false }, capacity := 2 }
    let q : NoticeQueue := { capacity := 2 }
    let feed := Intake.sampleFeed a b
    let run := Intake.run s.sources (Intake.sampleRoster a b) feed .feedEnded
    let e := (start q (Intake.sampleRoster a b)).after s.sources feed .feedEnded shortStay
    NoticeQueue.create s = .ok q ∧
      (∃ failure, e.progress.stage = .ended failure) ∧ e.progress.roster = run.roster ∧
      e.listening.taken = [.started [.arp]] ∧ e.listening.taken.Sublist run.notices ∧
      run.steps.length < 12 ∧
      ((start q (Intake.sampleRoster a b)).after s.sources feed .feedEnded
        (List.replicate 12 .turn ++ [.take 2])).listening.taken = [.started [.arp], .cleared .arp 2] := by
  intro a b s q feed run e
  have hq : NoticeQueue.create s = .ok q := by rfl
  obtain ⟨hmoves, hunread, -⟩ := listener_run hq (Intake.sampleRoster a b) feed .feedEnded
  obtain ⟨hended, heq, -, hsublist, -⟩ := hmoves shortStay
  have hturns : run.steps.length < shortStay.count .turn := by decide
  have hsteps : run.steps.length < 12 := by decide
  obtain ⟨failure, hfailure⟩ := hended.mpr hturns
  obtain ⟨hroster, -, hlog⟩ := heq failure hfailure
  refine ⟨hq, ⟨failure, hfailure⟩, hroster, by decide, hlog ▸ hsublist, hsteps, ?_⟩
  have hcount : s.capacity ≤ 2 := Nat.le_refl 2
  rw [hunread 12 2 hsteps hcount]
  decide

end Exchange

end ClientRoster
