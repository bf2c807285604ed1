import Screencast.Proofs.InHand

/-!
# A slow reader holds capture up

One payload at most lies in the channel, and the reservation that holds the room keeps it empty. So a
pass captures only with the room in hand, sends one payload at most, and leaves no reservation behind,
whichever way it ends: what keeps the next pass waiting is an unread payload and nothing else. The reader
gets what was sent, in that order.
-/

namespace Screencast

/-! ### What a pass asks of the room -/

inductive Tenure where
  | nothing
  | asked (ticket : Nat)
  | held (ticket : Nat)
  deriving DecidableEq

/-- Payloads that a pass with this tenure may still send. -/
def Tenure.credit : Tenure → Nat
  | .nothing => 0
  | .asked _ | .held _ => 1

def Phase.tenure : Phase → Tenure
  | .ready | .resting _ | .stopped => .nothing
  | .awaitSlot ticket => .asked ticket
  | .awaitGate ticket | .capturing ticket _ | .idle ticket _ | .choosing ticket _ _ _ | .raising ticket _ =>
    .held ticket
  | .lowering s _ | .encodingKeyframe s _ | .sendingKeyframe s _ | .encodingDelta s _ | .sendingDelta s _ _ =>
    .held s.ticket

namespace PayloadChannel

variable {ch : PayloadChannel} {k : Tenure} {t : Nat}

/-! ### Room -/

@[simp] theorem settle_queued (ch : PayloadChannel) : ch.settle.queued = ch.queued := by
  unfold settle
  split
  · rfl
  · split <;> rfl

@[simp] theorem settle_hasReader (ch : PayloadChannel) : ch.settle.hasReader = ch.hasReader := by
  unfold settle
  split
  · rfl
  · split <;> rfl

@[simp] theorem settle_issued (ch : PayloadChannel) : ch.settle.issued = ch.issued := by
  unfold settle
  split
  · rfl
  · split <;> rfl

/-- Whose the room is, or will be: there is no other reservation than the one of the pass. -/
def FitsTenure (ch : PayloadChannel) : Tenure → Prop
  | .nothing => ch.holder = none ∧ ch.waiting = []
  | .asked t =>
    (ch.holder = some t ∧ ch.waiting = []) ∨
      ch.holder = none ∧ (ch.waiting = [t] ∨ ch.waiting = [] ∧ ch.hasReader = false)
  | .held t => ch.holder = some t ∧ ch.waiting = []

/-- The channel in step with a tenure: the room is empty in the hands of a reservation, and only an unread
payload keeps one waiting. -/
structure Serves (ch : PayloadChannel) (k : Tenure) : Prop where
  empty : ch.holder.isSome → ch.queued = none
  deserted : ch.hasReader = false → ch.queued = none
  fits : ch.FitsTenure k
  granted : ch.waiting ≠ [] → ch.queued.isSome

theorem waiting_of_fitsTenure (h : ch.FitsTenure k) (hw : ch.waiting ≠ []) :
    ∃ t, k = .asked t ∧ ch.holder = none ∧ ch.waiting = [t] := by
  cases k with
  | nothing => exact absurd h.2 hw
  | held t => exact absurd h.2 hw
  | asked t =>
    rcases h with ⟨-, hnone⟩ | ⟨hholder, ht | ⟨hnone, -⟩⟩
    · exact absurd hnone hw
    · exact ⟨t, rfl, hholder, ht⟩
    · exact absurd hnone hw

theorem serves_settle (hempty : ch.holder.isSome → ch.queued = none)
    (hdeserted : ch.hasReader = false → ch.queued = none) (hfits : ch.FitsTenure k) : ch.settle.Serves k := by
  unfold settle
  split
  · -- Without a reader whoever waited is refused.
    rename_i hreader
    have hgone : ch.hasReader = false := by simpa using hreader
    refine ⟨hempty, hdeserted, ?_, fun h => absurd rfl h⟩
    cases k with
    | nothing => exact ⟨hfits.1, rfl⟩
    | held t => exact ⟨hfits.1, rfl⟩
    | asked t =>
      rcases hfits with ⟨hholder, -⟩ | ⟨hholder, -⟩
      · exact .inl ⟨hholder, rfl⟩
      · exact .inr ⟨hholder, .inr ⟨rfl, hgone⟩⟩
  · split
    · rename_i oldest rest hq _ hw
      obtain ⟨t, rfl, -, ht⟩ := waiting_of_fitsTenure hfits (by rw [hw]; simp)
      rw [hw] at ht
      cases ht
      exact ⟨fun _ => hq, fun _ => hq, .inl ⟨rfl, rfl⟩, fun h => absurd rfl h⟩
    · rename_i hfull
      refine ⟨hempty, hdeserted, hfits, fun hw => ?_⟩
      obtain ⟨t, -, hholder, ht⟩ := waiting_of_fitsTenure hfits hw
      cases hq : ch.queued with
      | none => exact absurd ht (hfull t [] hq hholder)
      | some p => rfl

theorem serves_new : new.Serves .nothing := ⟨fun _ => rfl, fun _ => rfl, ⟨rfl, rfl⟩, fun h => absurd rfl h⟩

/-! ### What each operation keeps -/

theorem Serves.reserve (h : ch.Serves .nothing) : ch.reserve.2.Serves (.asked ch.issued) := by
  obtain ⟨hholder, hw⟩ := h.fits
  refine serves_settle h.empty h.deserted (.inr ⟨hholder, .inl ?_⟩)
  show ch.waiting ++ [ch.issued] = [ch.issued]
  rw [hw, List.nil_append]

/-- What is asked of the channel is either still waiting behind an unread payload, or held, or refused. -/
theorem Serves.stateOf (h : ch.Serves (.asked t)) :
    (ch.stateOf t = .waiting ↔ ch.queued.isSome) ∧ (ch.stateOf t = .held → ch.Serves (.held t)) ∧
      (ch.stateOf t ≠ .waiting → ch.stateOf t ≠ .held → ch.Serves .nothing) := by
  unfold PayloadChannel.stateOf
  rcases h.fits with ⟨hholder, hw⟩ | ⟨hholder, hw | ⟨hw, hgone⟩⟩
  · have hq : ch.queued = none := h.empty (by rw [hholder]; rfl)
    simp only [hw, hholder, hq, List.not_mem_nil, if_false, if_true]
    refine ⟨by simp, fun _ => ⟨h.empty, h.deserted, ⟨hholder, hw⟩, h.granted⟩, fun _ hn => absurd rfl hn⟩
  · have hq : ch.queued.isSome := h.granted (by rw [hw]; simp)
    simp [hw, hq]
  · have hq : ch.queued = none := h.deserted hgone
    have hfree : ch.Serves .nothing := ⟨h.empty, h.deserted, ⟨hholder, hw⟩, h.granted⟩
    by_cases hrefused : t ∈ ch.refused <;> simp [hw, hholder, hq, hrefused, hfree]

theorem Serves.giveUp (h : ch.Serves k) (hk : k = .asked t ∨ k = .held t) : (ch.giveUp t).Serves .nothing := by
  have hfits := h.fits
  have hone : (ch.holder = some t ∨ ch.holder = none) ∧ (ch.waiting = [t] ∨ ch.waiting = []) := by
    rcases hk with rfl | rfl
    · rcases hfits with ⟨hholder, hw⟩ | ⟨hholder, hw | ⟨hw, -⟩⟩
      · exact ⟨.inl hholder, .inr hw⟩
      · exact ⟨.inr hholder, .inl hw⟩
      · exact ⟨.inr hholder, .inr hw⟩
    · exact ⟨.inl hfits.1, .inr hfits.2⟩
  refine serves_settle (fun hn => ?_) h.deserted ⟨?_, ?_⟩
  · refine h.empty ?_
    rcases hone.1 with hholder | hholder
    · rw [hholder]; rfl
    · simp [hholder] at hn
  · rcases hone.1 with hholder | hholder <;> simp [hholder]
  · rcases hone.2 with hw | hw <;> simp [hw]

theorem Serves.dropWriter (h : ch.Serves .nothing) : ch.dropWriter.Serves .nothing :=
  serves_settle h.empty h.deserted h.fits

theorem Serves.receive (h : ch.Serves k) : ch.receive.2.Serves k :=
  serves_settle (fun _ => rfl) (fun _ => rfl) (by cases k <;> exact h.fits)

theorem Serves.dropReader (h : ch.Serves k) : ch.dropReader.Serves k := by
  refine serves_settle (fun _ => rfl) (fun _ => rfl) ?_
  have hfits := h.fits
  cases k with
  | nothing => exact hfits
  | held t => exact hfits
  | asked t => exact hfits.imp_right (And.imp_right (Or.imp_right fun hw => ⟨hw.1, rfl⟩))

/-- A payload put into held room lies there for the reader, if there is one. -/
theorem Serves.send (h : ch.Serves (.held t)) (p : RegionPayload) :
    ∃ after, ch.send? t p = some after ∧ after.Serves .nothing ∧ ch.queued = none ∧
      after.hasReader = ch.hasReader ∧ after.issued = ch.issued ∧
      after.queued = if ch.hasReader then some p else none := by
  obtain ⟨hholder, hw⟩ := h.fits
  refine ⟨_, if_pos hholder, serves_settle ?_ ?_ ⟨rfl, hw⟩, h.empty (by rw [hholder]; rfl), ?_, ?_, ?_⟩
  · intro hn
    cases hn
  · intro hgone
    show (if ch.hasReader then some p else none) = none
    rw [show ch.hasReader = false from hgone]
    rfl
  · simp
  · simp
  · simp

end PayloadChannel

namespace Machine

variable {c : Compressor} {m after : Machine} {e : Option Event}

/-! ### What a move does to the channel -/

/-- How a move that is not the reader's treats the channel, with the tenure on it before and after. -/
inductive Uses (m after : Machine) : Option Event → Prop where
  | aside {e : Option Event} (channel : after.channel = m.channel) (tenure : after.phase.tenure = m.phase.tenure)
      (unsent : e.bind Event.payload? = none) (unasked : e.bind Event.acquired? = none) : Uses m after e
  | reserve (before : m.phase.tenure = .nothing) (channel : after.channel = m.channel.reserve.2)
      (tenure : after.phase.tenure = .asked m.channel.issued) : Uses m after none
  | grant {t : Nat} (before : m.phase.tenure = .asked t) (held : m.channel.stateOf t = .held)
      (channel : after.channel = m.channel) (tenure : after.phase.tenure = .held t) : Uses m after none
  | acquire {t : Nat} {d : Display} (before : m.phase = .awaitGate t) (gate : m.controller.isGateOpen = true)
      (channel : after.channel = m.channel) (phase : after.phase = .capturing t d) : Uses m after (some (.acquired d))
  | giveUp {t : Nat} {e : Option Event} (before : m.phase.tenure = .asked t ∨ m.phase.tenure = .held t)
      (channel : after.channel = m.channel.giveUp t ∨ after.channel = (m.channel.giveUp t).dropWriter)
      (tenure : after.phase.tenure = .nothing) (unsent : e.bind Event.payload? = none)
      (unasked : e.bind Event.acquired? = none) : Uses m after e
  /-- The reader is gone: what was asked is refused. -/
  | refuse {t : Nat} (before : m.phase.tenure = .asked t) (unheld : m.channel.stateOf t ≠ .held)
      (refused : m.channel.stateOf t ≠ .waiting) (channel : after.channel = m.channel.dropWriter)
      (tenure : after.phase.tenure = .nothing) : Uses m after none
  | leave (before : m.phase.tenure = .nothing) (channel : after.channel = m.channel.dropWriter)
      (tenure : after.phase.tenure = .nothing) : Uses m after none
  | send {t : Nat} {p : RegionPayload} (before : m.phase.tenure = .held t) (channel : after.channel = m.put t p)
      (tenure : after.phase.tenure = .nothing) : Uses m after (m.taken t p)

theorem tenure_of_cancelled {t : Nat}
    (phase : m.phase = .awaitSlot t ∨ m.phase = .awaitGate t ∨ ∃ d, m.phase = .capturing t d) :
    m.phase.tenure = .asked t ∨ m.phase.tenure = .held t := by
  obtain phase | phase | ⟨d, phase⟩ := phase
  · exact .inl (by rw [phase]; rfl)
  · exact .inr (by rw [phase]; rfl)
  · exact .inr (by rw [phase]; rfl)

theorem uses_action (h : Action c m e after) : m.Uses after e := by
  cases h with
  | reserved phase => exact .reserve (by rw [phase]; rfl) rfl rfl
  | granted phase _ held => exact .grant (by rw [phase]; rfl) held rfl rfl
  | denied phase _ unheld refused => exact .refuse (by rw [phase]; rfl) unheld refused rfl rfl
  | cancelled phase => exact .giveUp (tenure_of_cancelled phase) (.inr rfl) rfl rfl rfl
  | acquired phase _ gate => exact .acquire phase gate rfl rfl
  | unattended phase | idled phase | unchanged phase | raised phase | raisedLate phase =>
    exact .giveUp (.inr (by rw [phase]; rfl)) (.inl rfl) rfl rfl rfl
  | resend phase | keyframe phase | delta phase | lowered phase | encodedKeyframe phase | refusedKeyframe phase
  | encodedDelta phase | refusedDelta phase | woken phase =>
    exact .aside rfl (by rw [phase]; rfl) rfl rfl
  | sentKeyframe phase | sentDelta phase => exact .send (by rw [phase]; rfl) rfl rfl
  | left phase => exact .leave (by rw [phase]; rfl) rfl rfl

/-- The reader's moves are its own; every other move is one of the loop, or leaves the channel alone. -/
theorem uses_move {mv : Move} (h : m.move c mv = some (after, e)) :
    (mv = .receive ∧ after = m.receive.2 ∧ e = none) ∨
    (mv = .dropReader ∧ after = m.dropReader ∧ e = none) ∨
    (mv ≠ .receive ∧ mv ≠ .dropReader ∧ m.Uses after e) := by
  cases mv with
  | receive =>
    cases h
    exact .inl ⟨rfl, rfl, rfl⟩
  | dropReader =>
    cases h
    exact .inr (.inl ⟨rfl, rfl, rfl⟩)
  | act => exact .inr (.inr ⟨Move.noConfusion, Move.noConfusion, uses_action (move_act_iff.mp h)⟩)
  | fail => exact .inr (.inr ⟨Move.noConfusion, Move.noConfusion, uses_action (move_fail_iff.mp h)⟩)
  | answer r =>
    obtain ⟨t, d, hp, rfl, rfl⟩ := answer_of_move h
    refine .inr (.inr ⟨Move.noConfusion, Move.noConfusion, ?_⟩)
    simp only [supply, hp]
    cases r with
    | timedOut => exact .giveUp (.inr (by rw [hp]; rfl)) (.inl rfl) rfl rfl rfl
    | _ => exact .aside rfl (by rw [hp]; rfl) rfl rfl
  | select name =>
    obtain ⟨d, rfl, rfl⟩ := select_of_move h
    exact .inr (.inr ⟨Move.noConfusion, Move.noConfusion, .aside rfl rfl rfl rfl⟩)
  | _ =>
    cases h
    exact .inr (.inr ⟨Move.noConfusion, Move.noConfusion, .aside rfl rfl rfl rfl⟩)

/-! ### What every move keeps -/

theorem new_channel {s : PipelineSettings} {attached : List Display} (h : new s attached = .ok m) :
    m.channel = .new := by
  unfold new at h
  split at h <;> cases h
  rfl

def IsServed (m : Machine) : Prop := m.channel.Serves m.phase.tenure

theorem IsServed.room_held {t : Nat} (h : m.IsServed) (ht : m.phase.tenure = .held t) :
    m.channel.holder = some t ∧ m.channel.queued = none := by
  unfold IsServed at h
  rw [ht] at h
  exact ⟨h.fits.1, h.empty (by rw [h.fits.1]; rfl)⟩

theorem put_eq {t : Nat} {p : RegionPayload} {ch : PayloadChannel} (h : m.channel.send? t p = some ch) :
    m.put t p = ch := by
  rw [put, h, Option.getD_some]

theorem taken_eq {t : Nat} {p : RegionPayload} {ch : PayloadChannel} (h : m.channel.send? t p = some ch) :
    m.taken t p = some (.sent p) := by
  rw [taken, h]
  rfl

theorem Uses.isServed (h : m.Uses after e) (hm : m.IsServed) : after.IsServed := by
  unfold IsServed at hm ⊢
  cases h with
  | aside channel tenure => rwa [channel, tenure]
  | reserve before channel tenure =>
    rw [before] at hm
    rw [channel, tenure]
    exact hm.reserve
  | grant before held channel tenure =>
    rw [before] at hm
    rw [channel, tenure]
    exact hm.stateOf.2.1 held
  | @acquire t d before _ channel phase =>
    rw [before] at hm
    rw [channel, phase]
    exact hm
  | giveUp before channel tenure =>
    rw [tenure]
    rcases channel with channel | channel
    · rw [channel]
      exact hm.giveUp before
    · rw [channel]
      exact (hm.giveUp before).dropWriter
  | refuse before unheld refused channel tenure =>
    rw [before] at hm
    rw [channel, tenure]
    exact (hm.stateOf.2.2 refused unheld).dropWriter
  | leave before channel tenure =>
    rw [before] at hm
    rw [channel, tenure]
    exact hm.dropWriter
  | @send t p before channel tenure =>
    rw [before] at hm
    obtain ⟨ch, hsend, hserves, -⟩ := hm.send p
    rw [channel, put_eq hsend, tenure]
    exact hserves

/-- What lies in the channel is what lay in it and what was sent. -/
theorem Uses.conserves (h : m.Uses after e) (hm : m.IsServed) :
    after.channel.hasReader = m.channel.hasReader ∧ (m.channel.hasReader = true →
      after.channel.queued.toList = m.channel.queued.toList ++ (e.bind Event.payload?).toList) := by
  cases h with
  | aside channel _ unsent => simp [channel, unsent]
  | reserve _ channel => simp [channel, PayloadChannel.reserve]
  | grant _ _ channel => simp [channel]
  | acquire _ _ channel => simp [channel, Event.payload?]
  | giveUp _ channel _ unsent =>
    rcases channel with channel | channel <;>
      simp [channel, unsent, PayloadChannel.giveUp, PayloadChannel.dropWriter]
  | refuse _ _ _ channel => simp [channel, PayloadChannel.dropWriter]
  | leave _ channel => simp [channel, PayloadChannel.dropWriter]
  | @send t p before channel =>
    unfold IsServed at hm
    rw [before] at hm
    obtain ⟨ch, hsend, -, hempty, hreader, -, hqueued⟩ := hm.send p
    rw [channel, put_eq hsend, taken_eq hsend, hqueued, hempty]
    refine ⟨hreader, fun hr => ?_⟩
    rw [hr]
    rfl

/-- A payload is paid for by the reservation of its pass. -/
theorem Uses.credit_le (h : m.Uses after e) (hm : m.IsServed) :
    (e.bind Event.payload?).toList.length + after.phase.tenure.credit + m.channel.issued ≤
      m.phase.tenure.credit + after.channel.issued := by
  cases h with
  | aside channel tenure unsent => simp [channel, tenure, unsent]
  | reserve before channel tenure => simp [channel, before, tenure, Tenure.credit, PayloadChannel.reserve]; omega
  | grant before _ channel tenure => simp [channel, before, tenure, Tenure.credit]
  | acquire before _ channel phase => simp [channel, before, phase, Tenure.credit, Phase.tenure, Event.payload?]
  | giveUp _ channel tenure unsent =>
    rcases channel with channel | channel <;>
      simp [channel, tenure, unsent, Tenure.credit, PayloadChannel.giveUp, PayloadChannel.dropWriter]
  | refuse _ _ _ channel tenure => simp [channel, tenure, Tenure.credit, PayloadChannel.dropWriter]
  | leave _ channel tenure => simp [channel, tenure, Tenure.credit, PayloadChannel.dropWriter]
  | @send t p before channel tenure =>
    unfold IsServed at hm
    rw [before] at hm
    obtain ⟨ch, hsend, -, -, -, hissued, -⟩ := hm.send p
    rw [channel, put_eq hsend, taken_eq hsend, hissued, before, tenure]
    exact Nat.le_refl _

/-- The payload that the reader takes in a move. -/
def handed (m : Machine) : Move → Option RegionPayload
  | .receive => m.receive.1
  | _ => none

theorem handed_of_ne {mv : Move} (m : Machine) (h : mv ≠ .receive) : m.handed mv = none := by
  cases mv <;> first | rfl | exact absurd rfl h

theorem isServed_move {mv : Move} (h : m.move c mv = some (after, e)) (hm : m.IsServed) : after.IsServed := by
  rcases uses_move h with ⟨rfl, rfl, rfl⟩ | ⟨rfl, rfl, rfl⟩ | ⟨-, -, huses⟩
  · exact PayloadChannel.Serves.receive hm
  · exact PayloadChannel.Serves.dropReader hm
  · exact huses.isServed hm

theorem conserves_move {mv : Move} (h : m.move c mv = some (after, e)) (hm : m.IsServed) (hmv : mv ≠ .dropReader)
    (hr : m.channel.hasReader = true) :
    after.channel.hasReader = true ∧ (m.handed mv).toList ++ after.channel.queued.toList =
      m.channel.queued.toList ++ (e.bind Event.payload?).toList := by
  rcases uses_move h with ⟨rfl, rfl, rfl⟩ | ⟨rfl, -, -⟩ | ⟨hreceive, -, huses⟩
  · simp [receive, handed, PayloadChannel.receive, hr]
  · exact absurd rfl hmv
  · obtain ⟨hreader, hqueued⟩ := huses.conserves hm
    refine ⟨hreader.trans hr, ?_⟩
    rw [handed_of_ne m hreceive, hqueued hr]
    rfl

theorem credit_move {mv : Move} (h : m.move c mv = some (after, e)) (hm : m.IsServed) :
    (e.bind Event.payload?).toList.length + after.phase.tenure.credit + m.channel.issued ≤
      m.phase.tenure.credit + after.channel.issued := by
  rcases uses_move h with ⟨rfl, rfl, rfl⟩ | ⟨rfl, rfl, rfl⟩ | ⟨-, -, huses⟩
  · simp [receive, PayloadChannel.receive]
  · simp [dropReader, PayloadChannel.dropReader]
  · exact huses.credit_le hm

theorem queued_move {mv : Move} (h : m.move c mv = some (after, e)) (hm : m.IsServed)
    (hq : m.channel.queued = none) (he : e.bind Event.payload? = none) : after.channel.queued = none := by
  rcases uses_move h with ⟨-, rfl, -⟩ | ⟨-, rfl, -⟩ | ⟨-, -, huses⟩
  · exact PayloadChannel.settle_queued _
  · exact PayloadChannel.settle_queued _
  · obtain ⟨hreader, hqueued⟩ := huses.conserves hm
    cases hr : m.channel.hasReader with
    | true =>
      have hlist := hqueued hr
      rw [hq, he] at hlist
      simpa using hlist
    | false => exact (huses.isServed hm).deserted (hreader.trans hr)

theorem acquired_of_move {mv : Move} {d : Display} (h : m.move c mv = some (after, some (.acquired d)))
    (hm : m.IsServed) :
    ∃ t, m.phase = .awaitGate t ∧ m.channel.holder = some t ∧ m.controller.isGateOpen = true ∧
      m.channel.queued = none := by
  rcases uses_move h with ⟨-, -, he⟩ | ⟨-, -, he⟩ | ⟨-, -, huses⟩
  · cases he
  · cases he
  · generalize he : some (Event.acquired d) = e at huses
    cases huses with
    | aside _ _ _ unasked | giveUp _ _ _ _ unasked =>
      rw [← he] at unasked
      cases unasked
    | @acquire t x before gate =>
      obtain ⟨hholder, hempty⟩ := hm.room_held (by rw [before]; rfl)
      exact ⟨t, before, hholder, gate, hempty⟩
    | @send t p before =>
      unfold taken at he
      split at he <;> cases he
    | _ => cases he

end Machine

namespace Run

variable {c : Compressor}

/-- What the reader takes in the course of the moves. -/
def received (c : Compressor) (r : Run) : List Move → List RegionPayload
  | [] => []
  | mv :: rest => (r.machine.handed mv).toList ++ received c (r.next c mv) rest

theorem next_cases (c : Compressor) (r : Run) (mv : Move) :
    (∃ after e, r.machine.move c mv = some (after, e) ∧ r.next c mv = ⟨after, e.toList ++ r.trace⟩) ∨
      (r.machine.handed mv = none ∧ r.next c mv = r) := by
  cases h : r.machine.move c mv with
  | some x => exact .inl ⟨x.1, x.2, rfl, by rw [next, h]⟩
  | none =>
    have hreceive : mv ≠ .receive := by
      rintro rfl
      cases h
    exact .inr ⟨Machine.handed_of_ne _ hreceive, by rw [next, h]⟩

theorem isServed_next {r : Run} (h : r.machine.IsServed) (mv : Move) : (r.next c mv).machine.IsServed := by
  rcases next_cases c r mv with ⟨after, e, hm, hnext⟩ | ⟨-, hnext⟩
  · rw [hnext]
    exact Machine.isServed_move hm h
  · rwa [hnext]

theorem isServed_play {r : Run} (h : r.machine.IsServed) (moves : List Move) : (r.play c moves).machine.IsServed :=
  play_keeps (P := fun r => r.machine.IsServed) (fun _ mv _ hr => isServed_next hr mv) h

theorem start_isServed {s : PipelineSettings} {attached : List Display} {m : Machine}
    (h : Machine.new s attached = .ok m) (registry : Registry) : (start m registry).machine.IsServed := by
  obtain ⟨-, hphase, -, -⟩ := start_ok h registry
  have hchannel : m.channel = .new := Machine.new_channel h
  unfold Machine.IsServed
  rw [hphase, show (start m registry).machine.channel = .new from hchannel]
  exact PayloadChannel.serves_new

/-- What the reader took and what lies in the channel is what lay in it before and what was sent since. -/
theorem received_play {moves : List Move} (hdrop : .dropReader ∉ moves) {r : Run} (h : r.machine.IsServed)
    (hr : r.machine.channel.hasReader = true) :
    ∃ sent, payloads (r.play c moves).trace = sent.reverse ++ payloads r.trace ∧
      r.received c moves ++ (r.play c moves).machine.channel.queued.toList =
        r.machine.channel.queued.toList ++ sent := by
  induction moves generalizing r with
  | nil => exact ⟨[], rfl, by rw [List.append_nil]; rfl⟩
  | cons mv rest ih =>
    have hmv : mv ≠ .dropReader := fun heq => hdrop (heq ▸ List.mem_cons_self)
    have hrest : .dropReader ∉ rest := fun hmem => hdrop (List.mem_cons_of_mem mv hmem)
    rw [play_cons, received]
    rcases next_cases c r mv with ⟨after, e, hm, hnext⟩ | ⟨hnone, hnext⟩
    · rw [hnext]
      obtain ⟨hreader, hlaw⟩ := Machine.conserves_move hm h hmv hr
      obtain ⟨sent, hpayloads, hreceived⟩ :=
        ih hrest (r := ⟨after, e.toList ++ r.trace⟩) (Machine.isServed_move hm h) hreader
      refine ⟨(e.bind Event.payload?).toList ++ sent, ?_, ?_⟩
      · rw [hpayloads, payloads_toList_append, List.reverse_append, List.append_assoc]
        cases e.bind Event.payload? <;> rfl
      · rw [List.append_assoc, hreceived, ← List.append_assoc, hlaw, List.append_assoc]
    · rw [hnext, hnone]
      exact ih hrest h hr

/-- Every payload is paid for by a reservation. -/
theorem credit_play {r : Run} (h : r.machine.IsServed) (moves : List Move) :
    (payloads (r.play c moves).trace).length + (r.play c moves).machine.phase.tenure.credit +
        r.machine.channel.issued ≤
      (payloads r.trace).length + r.machine.phase.tenure.credit + (r.play c moves).machine.channel.issued := by
  induction moves generalizing r with
  | nil => exact Nat.le_refl _
  | cons mv rest ih =>
    have hrest := ih (isServed_next (c := c) h mv)
    rw [play_cons]
    rcases next_cases c r mv with ⟨after, e, hm, hnext⟩ | ⟨-, hnext⟩
    · have hcredit := Machine.credit_move hm h
      rw [hnext] at hrest ⊢
      rw [payloads_toList_append, List.length_append] at hrest
      dsimp only at hrest
      omega
    · rw [hnext] at hrest ⊢
      exact hrest

/-- The room is empty as long as no more than `n` payloads were sent. -/
structure IsEmptyTo (n : Nat) (r : Run) : Prop where
  served : r.machine.IsServed
  grown : n ≤ (payloads r.trace).length
  empty : (payloads r.trace).length = n → r.machine.channel.queued = none

theorem isEmptyTo_next {n : Nat} {r : Run} (h : r.IsEmptyTo n) (mv : Move) : (r.next c mv).IsEmptyTo n := by
  rcases next_cases c r mv with ⟨after, e, hm, hnext⟩ | ⟨-, hnext⟩
  · rw [hnext]
    have hlength : (payloads (e.toList ++ r.trace)).length =
        (e.bind Event.payload?).toList.length + (payloads r.trace).length := by
      rw [payloads_toList_append, List.length_append]
    have hgrown := h.grown
    refine ⟨Machine.isServed_move hm h.served, ?_, fun heq => ?_⟩
    · rw [hlength]
      omega
    · rw [hlength] at heq
      have hnothing : e.bind Event.payload? = none := by
        -- A payload would make more than `n`.
        cases hsent : e.bind Event.payload? with
        | none => rfl
        | some p =>
          rw [hsent, Option.toList_some, List.length_singleton] at heq
          omega
      exact Machine.queued_move hm h.served (h.empty (by omega)) hnothing
  · rwa [hnext]

theorem queued_play {r : Run} (h : r.machine.IsServed) (hq : r.machine.channel.queued = none) {moves : List Move}
    (heq : payloads (r.play c moves).trace = payloads r.trace) : (r.play c moves).machine.channel.queued = none := by
  have hstart : r.IsEmptyTo (payloads r.trace).length := ⟨h, Nat.le_refl _, fun _ => hq⟩
  have hkept : (r.play c moves).IsEmptyTo (payloads r.trace).length :=
    play_keeps (P := IsEmptyTo (payloads r.trace).length) (fun _ mv _ hr => isEmptyTo_next hr mv) hstart
  exact hkept.empty (by rw [heq])

/-! ### What a run shows -/

theorem received_start {s : PipelineSettings} {attached : List Display} {m : Machine}
    (h : Machine.new s attached = .ok m) (registry : Registry) {moves : List Move} (hdrop : .dropReader ∉ moves) :
    (start m registry).received c moves ++ ((start m registry).play c moves).machine.channel.queued.toList =
      (payloads ((start m registry).play c moves).trace).reverse := by
  have hchannel : (start m registry).machine.channel = .new := (Machine.new_channel h : m.channel = .new)
  obtain ⟨sent, hsent, hreceived⟩ :=
    received_play (c := c) hdrop (start_isServed h registry) (by rw [hchannel]; rfl)
  have hnothing : payloads (start m registry).trace = [] := rfl
  rw [hchannel] at hreceived
  rw [hsent, hnothing, List.append_nil, List.reverse_reverse]
  exact hreceived

theorem room_at_acquisition {r : Run} (h : r.machine.IsServed) {mv : Move} {d : Display}
    (hd : (r.next c mv).trace = .acquired d :: r.trace) :
    ∃ t, r.machine.phase = .awaitGate t ∧ r.machine.channel.holder = some t ∧
      r.machine.controller.isGateOpen = true ∧ r.machine.channel.queued = none := by
  rcases next_cases c r mv with ⟨after, e, hm, hnext⟩ | ⟨-, hnext⟩
  · rw [hnext] at hd
    cases e with
    | none => exact absurd hd.symm (List.cons_ne_self _ _)
    | some x =>
      obtain rfl : x = .acquired d := (List.cons.inj hd).1
      exact Machine.acquired_of_move hm h
  · rw [hnext] at hd
    exact absurd hd.symm (List.cons_ne_self _ _)

theorem payloads_of_pass {r : Run} (h : r.machine.IsServed) {moves : List Move}
    (hpass : (r.play c moves).machine.channel.issued = r.machine.channel.issued) :
    (payloads (r.play c moves).trace).length ≤ (payloads r.trace).length + 1 := by
  have hcredit := credit_play (c := c) h moves
  have hone : r.machine.phase.tenure.credit ≤ 1 := by
    cases r.machine.phase.tenure <;> simp [Tenure.credit]
  omega

end Run

variable {c : Compressor} {s : PipelineSettings} {attached : List Display} {m : Machine}

/-- Whatever others do, a reader that stays gets the payloads that were sent, in that order, all but one
that may lie in the channel. A capture begins with the room in hand, the gate open and nothing unread, and
goes on with nothing unread. Between two reservations one payload at most is sent. A pass that is over has
left no reservation, and if it held the room and sent nothing the room is empty; so a pass waits for the
room only behind an unread payload. -/
theorem backpressure (h : Machine.new s attached = .ok m) (registry : Registry) (moves : List Move) :
    let r := (Run.start m registry).play c moves
    let channel := r.machine.channel
    (.dropReader ∉ moves →
      (Run.start m registry).received c moves ++ channel.queued.toList = (payloads r.trace).reverse) ∧
    (∀ mv d, (r.next c mv).trace = .acquired d :: r.trace →
      ∃ t, r.machine.phase = .awaitGate t ∧ channel.holder = some t ∧ r.machine.controller.isGateOpen = true ∧
        channel.queued = none) ∧
    (∀ t d, r.machine.phase = .capturing t d → channel.holder = some t ∧ channel.queued = none) ∧
    (∀ rest, let after := r.play c rest
      after.machine.channel.issued = channel.issued →
        (payloads after.trace).length ≤ (payloads r.trace).length + 1) ∧
    (r.machine.phase.tenure = .nothing → channel.holder = none ∧ channel.waiting = []) ∧
    (∀ t rest, r.machine.phase.tenure = .held t →
      let after := r.play c rest
      payloads after.trace = payloads r.trace → after.machine.channel.queued = none) ∧
    ∀ t, r.machine.phase = .awaitSlot t → (channel.stateOf t = .waiting ↔ channel.queued.isSome) := by
  intro r channel
  have hstart : (Run.start m registry).machine.IsServed := Run.start_isServed h registry
  have hserved : r.machine.IsServed := Run.isServed_play hstart moves
  refine ⟨fun hdrop => Run.received_start h registry hdrop, fun mv d hd => Run.room_at_acquisition hserved hd,
    fun t d ht => hserved.room_held (by rw [ht]; rfl), fun rest => Run.payloads_of_pass hserved, ?_, ?_, ?_⟩
  · intro hnothing
    unfold Machine.IsServed at hserved
    rw [hnothing] at hserved
    exact hserved.fits
  · intro t rest ht after heq
    exact Run.queued_play hserved (hserved.room_held ht).2 heq
  · intro t ht
    unfold Machine.IsServed at hserved
    rw [ht] at hserved
    exact hserved.stateOf.1

/-- A keyframe lies unread while the next pass asks for the room; once it is read the pass goes on. -/
theorem backpressure_unread :
    let moves := Move.pass (.captured (.plain (.filled 1 1 .rgb 7))) 4 ++ [.act, .act]
    let r := (Run.start .small .small).play .plain moves
    let read := r.play .plain [.receive, .act, .act]
    Machine.new .lossless [.small] = .ok .small ∧ r.machine.channel.queued.isSome = true ∧
      (r.machine.channel.stateOf 1 = .waiting ↔ r.machine.channel.queued.isSome) ∧
      (∃ t, read.machine.phase = .capturing t .small ∧ read.machine.channel.queued = none) ∧
      (Run.start .small .small).received .plain moves ++ r.machine.channel.queued.toList =
        (payloads r.trace).reverse := by
  intro moves r read
  have hall := backpressure (c := .plain) Machine.new_small .small moves
  have hdrop : Move.dropReader ∉ moves := by simp [moves, Move.pass]
  exact ⟨Machine.new_small, rfl, hall.2.2.2.2.2.2 1 rfl, ⟨1, rfl, rfl⟩, hall.1 hdrop⟩

end Screencast
