import Screencast.Proofs.InHand
import Screencast.Proofs.Selection

/-!
# The display captured next

A change of the displays comes to the registry by a failed capture or by word of the system. Only the second
selects another display where the selected one is gone; after the first that is left to the next pass, which
selects the primary one before it captures. So a registry is compared by what it would select: the next pass
captures the same display on either path, as long as nobody selects another or refreshes the list again.
-/

namespace Screencast

namespace Registry

theorem selectPrimary_selectPrimary (r : Registry) : r.selectPrimary.selectPrimary = r.selectPrimary := by
  simp only [selectPrimary, primary, Option.or_assoc, Option.or_self]

/-- Both refreshes leave the same to be selected, the same list and, once that is selected, the same selection. -/
theorem selectPrimary_refreshed (r : Registry) (answer : Enumeration) :
    (r.reload answer).selectPrimary = (r.settingsChanged answer).selectPrimary := by
  cases answer with
  | error fault => rfl
  | ok l => simp only [reload, settingsChanged, selectPrimary, primary, Option.or_assoc, Option.or_self]

theorem selectedOrPrimary_eq (r : Registry) : r.selectedOrPrimary = (r.selectPrimary.selected, r.selectPrimary) := rfl

end Registry

/-- The move neither selects a display nor refreshes the list. -/
def Move.isSteady : Move → Bool
  | .select _ | .settingsChanged | .answer (.failed _ _) => false
  | _ => true

namespace Machine

variable {c : Compressor} {m after : Machine} {e : Option Event}

/-- How a move treats the selection: it leaves it, or selects the primary display if nothing is selected, as it does
before it captures. -/
structure Looks (m after : Machine) (e : Option Event) : Prop where
  registry : after.registry = m.registry ∨ after.registry = m.registry.selectPrimary
  acquired : ∀ d ∈ e.bind Event.acquired?,
    after.registry = m.registry.selectPrimary ∧ m.registry.selectPrimary.selected = some d

theorem looks_of_eq (hr : after.registry = m.registry) (he : e.bind Event.acquired? = none) : m.Looks after e := by
  refine ⟨.inl hr, fun d hd => ?_⟩
  rw [he] at hd
  cases hd

theorem looks_action (h : Action c m e after) : m.Looks after e := by
  cases h with
  | acquired _ _ _ selected =>
    refine ⟨.inr rfl, fun x hx => ⟨rfl, ?_⟩⟩
    cases hx
    exact selected
  | unattended => exact ⟨.inr rfl, nofun⟩
  | sentKeyframe | sentDelta => exact looks_of_eq rfl (acquired?_of_taken _ _ _)
  | _ => exact looks_of_eq rfl rfl

theorem registry_supply {r : CaptureResult} (h : (Move.answer r).isSteady = true) (m : Machine) :
    (m.supply r).registry = m.registry := by
  unfold supply
  split
  · cases r <;> first | rfl | cases h
  · rfl

theorem looks_move {mv : Move} (hsteady : mv.isSteady = true) (h : m.move c mv = some (after, e)) :
    m.Looks after e := by
  cases mv with
  | act => exact looks_action (move_act_iff.mp h)
  | fail => exact looks_action (move_fail_iff.mp h)
  | answer r =>
    obtain ⟨t, d, -, rfl, rfl⟩ := answer_of_move h
    exact looks_of_eq (registry_supply hsteady m) rfl
  | look =>
    cases h
    exact ⟨.inr rfl, fun d hd => (by cases hd)⟩
  | select | settingsChanged => cases hsteady
  | _ =>
    cases h
    exact looks_of_eq rfl rfl

end Machine

namespace Run

variable {c : Compressor} {r : Run} {next : Registry} {moves : List Move}

/-- Every display that was acquired is the one selected in `next`, and with the first of them the registry is `next`. -/
structure LooksAt (next : Registry) (r : Run) : Prop where
  registry : r.machine.registry.selectPrimary = next
  acquired : ∀ d ∈ acquisitions r.trace, next.selected = some d ∧ r.machine.registry = next

theorem looksAt_of_none (hr : r.machine.registry.selectPrimary = next) (h : acquisitions r.trace = []) :
    LooksAt next r := by
  refine ⟨hr, fun d hd => ?_⟩
  rw [h] at hd
  cases hd

theorem LooksAt.move {after : Machine} {e : Option Event} (h : r.LooksAt next) (hl : r.machine.Looks after e) :
    LooksAt next ⟨after, e.toList ++ r.trace⟩ := by
  have hnext : next.selectPrimary = next := by rw [← h.registry, Registry.selectPrimary_selectPrimary]
  have hregistry : after.registry.selectPrimary = next := by
    rcases hl.registry with heq | heq
    · rw [heq, h.registry]
    · rw [heq, h.registry, hnext]
  refine ⟨hregistry, fun d hd => ?_⟩
  cases he : e.bind Event.acquired? with
  | none =>
    rw [acquisitions_append he] at hd
    obtain ⟨hselected, hold⟩ := h.acquired d hd
    refine ⟨hselected, ?_⟩
    rcases hl.registry with heq | heq
    · exact heq.trans hold
    · exact heq.trans h.registry
  | some x =>
    obtain ⟨hafter, hselected⟩ := hl.acquired x he
    rw [h.registry] at hafter hselected
    refine ⟨?_, hafter⟩
    obtain ⟨y, rfl, hy⟩ := Option.bind_eq_some_iff.mp he
    have hd : d ∈ acquisitions (y :: r.trace) := hd
    rw [acquisitions_cons, hy] at hd
    rcases List.mem_cons.mp hd with rfl | hd
    · exact hselected
    · exact (h.acquired d hd).1

theorem LooksAt.play (h : r.LooksAt next) (hmoves : ∀ mv ∈ moves, mv.isSteady = true) :
    (r.play c moves).LooksAt next := by
  refine play_keeps (P := LooksAt next) (fun r mv hmv hr => ?_) h
  unfold Run.next
  split
  · rename_i after e hm
    exact hr.move (Machine.looks_move (hmoves mv hmv) hm)
  · exact hr

/-- After a refresh the passes capture the display that the registry would select then. -/
theorem looksAt_refreshed {m : Machine} {mv : Move} {after : Machine} {e : Option Event}
    (h : m.move c mv = some (after, e)) (he : e.bind Event.acquired? = none)
    (hr : after.registry.selectPrimary = next) (hmoves : ∀ mv ∈ moves, mv.isSteady = true) :
    (Run.play c ⟨m, []⟩ (mv :: moves)).LooksAt next := by
  have hnext : Run.next c ⟨m, []⟩ mv = ⟨after, e.toList ++ []⟩ := by
    unfold Run.next
    rw [h]
  rw [play_cons, hnext]
  exact (looksAt_of_none hr (acquisitions_append he [])).play hmoves

end Run

/-- A reload and word of changed settings lead to the same display, list and selection, whatever the registry was and
whatever the system answers. So a loop captures the same display next, whether its own capture failed or
it was told, until someone selects another display or refreshes the list again. -/
theorem next_display_same (r : Registry) (answer : Enumeration) :
    let next := (r.reload answer).selectedOrPrimary
    (r.settingsChanged answer).selectedOrPrimary = next ∧
      ∀ (c : Compressor) (m : Machine) (t : Nat) (d : Display) (reason : String) (fault : Bool) (moves others : List Move),
        m.phase = .capturing t d → m.registry = r → enumerate m.attached = answer →
        (∀ mv ∈ moves ++ others, mv.isSteady = true) →
        let failed := Run.play c ⟨m, []⟩ (.answer (.failed reason fault) :: moves)
        let told := Run.play c ⟨m, []⟩ (.settingsChanged :: others)
        (∀ x ∈ acquisitions failed.trace, next = (some x, failed.machine.registry)) ∧
          ∀ x ∈ acquisitions told.trace, next = (some x, told.machine.registry) := by
  intro next
  have hpaths : (r.settingsChanged answer).selectPrimary = (r.reload answer).selectPrimary :=
    (r.selectPrimary_refreshed answer).symm
  have hpair : next = ((r.reload answer).selectPrimary.selected, (r.reload answer).selectPrimary) := rfl
  refine ⟨by rw [Registry.selectedOrPrimary_eq, hpaths, hpair], ?_⟩
  rintro c m t d reason fault moves others hp rfl rfl hsteady failed told
  have hmoves : ∀ mv ∈ moves, mv.isSteady = true := fun mv hmv => hsteady mv (List.mem_append_left others hmv)
  have hothers : ∀ mv ∈ others, mv.isSteady = true := fun mv hmv => hsteady mv (List.mem_append_right moves hmv)
  have hanswer : m.move c (.answer (.failed reason fault)) =
      some (m.supply (.failed reason fault), some (.answered d (.failed reason fault))) := by
    simp only [Machine.move, hp]
  have hreload : (m.supply (.failed reason fault)).registry = m.registry.reload (enumerate m.attached) := by
    simp only [Machine.supply, hp]
  have hfailed : failed.LooksAt (m.registry.reload (enumerate m.attached)).selectPrimary :=
    Run.looksAt_refreshed hanswer rfl (by rw [hreload]) hmoves
  have htold : told.LooksAt (m.registry.reload (enumerate m.attached)).selectPrimary :=
    Run.looksAt_refreshed rfl rfl hpaths hothers
  constructor
  · intro x hx
    obtain ⟨hselected, hregistry⟩ := hfailed.acquired x hx
    rw [hpair, hselected, hregistry]
  · intro x hx
    obtain ⟨hselected, hregistry⟩ := htold.acquired x hx
    rw [hpair, hselected, hregistry]

/-- The selected display is unplugged while it is captured. -/
def Machine.unplugged : Machine :=
  ((Run.start .small .small).play .plain [.attach [.second], .act, .act, .act]).machine

/-- Its capture fails, or word comes first and it ends without changes: the next pass captures the other display. -/
theorem next_display_same_unplugged :
    let moves : List Move := [.act, .wait 1000000, .act, .act, .act, .act]
    let others : List Move := [.answer .noChanges, .act, .wait 1000000, .act, .act, .act, .act]
    let failed := Run.play .plain ⟨.unplugged, []⟩ (.answer (.failed "lost" true) :: moves)
    let told := Run.play .plain ⟨.unplugged, []⟩ (.settingsChanged :: others)
    let next := (Registry.small.selectPrimary.reload (enumerate [.second])).selectedOrPrimary
    Machine.unplugged.phase = .capturing 0 .small ∧ Machine.unplugged.registry = Registry.small.selectPrimary ∧
      enumerate Machine.unplugged.attached = enumerate [.second] ∧ (∀ mv ∈ moves ++ others, mv.isSteady = true) ∧
      acquisitions failed.trace = [.second] ∧ acquisitions told.trace = [.second] ∧
      (Registry.small.selectPrimary.settingsChanged (enumerate [.second])).selectedOrPrimary = next ∧
      (∀ x ∈ acquisitions failed.trace, next = (some x, failed.machine.registry)) ∧
      ∀ x ∈ acquisitions told.trace, next = (some x, told.machine.registry) := by
  intro moves others failed told next
  have hsteady : ∀ mv ∈ moves ++ others, mv.isSteady = true := by simp [moves, others, Move.isSteady]
  obtain ⟨hregistry, hloops⟩ := next_display_same Registry.small.selectPrimary (enumerate [.second])
  have hloop := hloops .plain .unplugged 0 .small "lost" true moves others rfl rfl rfl hsteady
  exact ⟨rfl, rfl, rfl, hsteady, by decide, by decide, hregistry, hloop⟩

end Screencast
