import Screencast.Agent.Watch
import Screencast.Proofs.Telemetry

/-!
# Announcing the displays

Two parties replace the list of a registry: the agent's looks, which announce what they replace, and
the capture loop, which reads the list anew after a failed capture and announces nothing. `Vigil` is a
session with both of them, and with the viewer that is told. A look compares with the list that was
taken over last, by whichever party: a change that the loop came upon first is not announced, and with
no such change before a look every change is.
-/

namespace Screencast

/-! ### Lists that the loop brings in -/

/-- The list that a move of the loop brings into the registry, if it brings one and is possible. -/
def Machine.relisting (m : Machine) : Move → Option (List Display)
  | .answer (.failed _ _) | .settingsChanged => (enumerate m.attached).toOption
  | _ => none

theorem Registry.displays_reload (r : Registry) (answer : Enumeration) :
    (r.reload answer).displays = answer.toOption.getD r.displays := by
  cases answer <;> rfl

theorem Registry.displays_settingsChanged (r : Registry) (answer : Enumeration) :
    (r.settingsChanged answer).displays = answer.toOption.getD r.displays := by
  cases answer <;> rfl

theorem Machine.displays_move {c : Compressor} {m after : Machine} {mv : Move} {e : Option Event}
    (h : m.move c mv = some (after, e)) :
    after.registry.displays = (m.relisting mv).getD m.registry.displays := by
  cases mv with
  | act => exact (tells_action (move_act_iff.mp h)).displays
  | fail => exact (tells_action (move_fail_iff.mp h)).displays
  | answer r =>
    obtain ⟨t, d, hp, rfl, -⟩ := answer_of_move h
    unfold supply
    rw [hp]
    cases r with
    | failed reason fault => exact Registry.displays_reload _ _
    | _ => rfl
  | select name =>
    obtain ⟨d, rfl, -⟩ := select_of_move h
    rfl
  | settingsChanged =>
    cases h
    exact Registry.displays_settingsChanged _ _
  | _ =>
    cases h
    rfl

/-! ### A session under watch -/

/-- The loop of a session, the agent's count of changes and what the viewer was told. -/
structure Vigil where
  machine : Machine
  generation : Nat
  news : DisplayNews
  /-- The list of the session's start, or of the last look that raised the count. -/
  announced : List Display
  /-- What the loop brought into the registry since, the latest first. -/
  found : List (List Display)

namespace Vigil

/-- A move of the loop or of others that act on it, a look of the agent, or a word to the viewer. -/
inductive Turn where
  | loop (mv : Move)
  | look
  | tell

def watch (v : Vigil) : DisplayWatch := ⟨v.machine.registry, v.generation⟩

/-- The list that the registry took over last. -/
def latest (v : Vigil) : List Display := v.found.headD v.announced

/-- A session over a registry that may have been in use before begins with word to the viewer. -/
def start (m : Machine) (registry : Registry) (generation : Nat) : Vigil :=
  ⟨{ m with registry }, generation, .first ⟨registry, generation⟩, registry.displays, []⟩

def work (c : Compressor) (v : Vigil) (mv : Move) : Vigil :=
  match v.machine.move c mv with
  | some (after, _) => { v with machine := after, found := (v.machine.relisting mv).toList ++ v.found }
  | none => v

def look (v : Vigil) : Vigil :=
  let seen := v.watch.poll (enumerate v.machine.attached)
  let after := { v with machine := { v.machine with registry := seen.registry }, generation := seen.generation }
  if seen.generation = v.generation then after else { after with announced := seen.registry.displays, found := [] }

def tell (v : Vigil) : Vigil := { v with news := v.news.follow v.watch }

def next (c : Compressor) (v : Vigil) : Turn → Vigil
  | .loop mv => v.work c mv
  | .look => v.look
  | .tell => v.tell

def play (c : Compressor) (v : Vigil) (turns : List Turn) : Vigil := turns.foldl (next c) v

/-! ### What each move keeps -/

/-- A viewer that is up to date by the count knows a list that the registry has had since the last announcement. -/
structure KeepsNews (v : Vigil) : Prop where
  held : v.machine.registry.displays = v.latest
  counted : v.news.generation ≤ v.generation
  known : v.news.generation = v.generation → v.news.displays ∈ v.announced :: v.found

variable {c : Compressor} {v : Vigil}

theorem KeepsNews.start (m : Machine) (registry : Registry) (generation : Nat) :
    (Vigil.start m registry generation).KeepsNews :=
  ⟨rfl, Nat.le_refl _, fun _ => List.mem_cons_self⟩

theorem KeepsNews.work (h : v.KeepsNews) (mv : Move) : (v.work c mv).KeepsNews := by
  unfold Vigil.work
  split
  · rename_i after e hm
    have hdisplays := Machine.displays_move hm
    refine ⟨?_, h.counted, fun hequal => ?_⟩
    · -- A list that is brought in is the one held and the latest found.
      show after.registry.displays = ((v.machine.relisting mv).toList ++ v.found).headD v.announced
      rw [hdisplays, h.held]
      cases v.machine.relisting mv <;> rfl
    · have hknown := h.known hequal
      simp only [List.mem_cons, List.mem_append] at hknown ⊢
      exact hknown.imp_right .inr
  · exact h

/-- A look changes nothing, or it takes another list over, counts that and owes the viewer a word. -/
theorem look_cases (v : Vigil) :
    (v.look = v ∧ ∀ l, enumerate v.machine.attached = .ok l → Display.sameList l v.machine.registry.displays) ∨
    ∃ l, enumerate v.machine.attached = .ok l ∧ Display.sameList l v.machine.registry.displays = false ∧
      v.look = { v with
        machine := { v.machine with registry := v.machine.registry.settingsChanged (.ok l) }
        generation := v.generation + 1
        announced := l
        found := [] } := by
  unfold look
  cases enumerate v.machine.attached with
  | error fault => exact .inl ⟨if_pos rfl, fun l hl => nomatch hl⟩
  | ok l =>
    cases hsame : Display.sameList l v.machine.registry.displays with
    | true =>
      have hpoll : v.watch.poll (.ok l) = v.watch := if_pos hsame
      rw [hpoll]
      refine .inl ⟨if_pos rfl, fun x hx => ?_⟩
      cases hx
      exact hsame
    | false =>
      have hpoll : v.watch.poll (.ok l) = ⟨v.machine.registry.settingsChanged (.ok l), v.generation + 1⟩ :=
        if_neg (by simp [watch, hsame])
      rw [hpoll]
      exact .inr ⟨l, rfl, hsame, if_neg (Nat.succ_ne_self v.generation)⟩

theorem KeepsNews.look (h : v.KeepsNews) : v.look.KeepsNews := by
  rcases v.look_cases with ⟨hlook, -⟩ | ⟨l, -, -, hlook⟩
  · rw [hlook]
    exact h
  · rw [hlook]
    have hcounted := h.counted
    refine ⟨rfl, Nat.le_succ_of_le hcounted, fun hequal => ?_⟩
    -- The count has just overtaken the viewer.
    have : v.news.generation = v.generation + 1 := hequal
    omega

theorem KeepsNews.tell (h : v.KeepsNews) : v.tell.KeepsNews := by
  unfold Vigil.tell DisplayNews.follow
  split
  · exact h
  · refine ⟨h.held, Nat.le_refl _, fun _ => ?_⟩
    show v.machine.registry.displays ∈ v.announced :: v.found
    rw [h.held]
    unfold latest
    cases v.found <;> simp

theorem KeepsNews.play (h : v.KeepsNews) (turns : List Turn) : (v.play c turns).KeepsNews := by
  induction turns generalizing v with
  | nil => exact h
  | cons t rest ih =>
    apply ih
    cases t with
    | loop mv => exact h.work mv
    | look => exact h.look
    | tell => exact h.tell

/-! ### Announcements -/

/-- The loop came upon no other list than the announced one. -/
def IsUnsurprised (v : Vigil) : Prop := ∀ l ∈ v.found, l = v.announced

instance (v : Vigil) : Decidable v.IsUnsurprised := inferInstanceAs (Decidable (∀ l ∈ v.found, l = v.announced))

theorem latest_of_unsurprised (hun : v.IsUnsurprised) : v.latest = v.announced := by
  unfold latest
  cases hfound : v.found with
  | nil => rfl
  | cons l rest => exact hun l (by simp [hfound])

theorem IsUnsurprised.look (hun : v.IsUnsurprised) : v.look.IsUnsurprised := by
  rcases v.look_cases with ⟨hlook, -⟩ | ⟨l, -, -, hlook⟩
  · rw [hlook]
    exact hun
  · rw [hlook]
    intro x hx
    cases hx

theorem displays_tell (h : v.KeepsNews) (hun : v.IsUnsurprised) :
    v.tell.news.displays = v.machine.registry.displays := by
  unfold tell DisplayNews.follow
  split
  · rename_i hequal
    have hknown : v.news.displays = v.announced := by
      rcases List.mem_cons.mp (h.known hequal) with hannounced | hfound
      · exact hannounced
      · exact hun _ hfound
    rw [h.held, latest_of_unsurprised hun]
    exact hknown
  · rfl

/-- A look raises the count exactly if it sees another list than the one taken over last. If the loop came upon no other
list than the announced one, the count is raised whenever the list changed, and the viewer knows the list once it is told. -/
theorem change_announced (c : Compressor) (m : Machine) (registry : Registry) (generation : Nat) (turns : List Turn)
    {l : List Display} (hl : enumerate ((start m registry generation).play c turns).machine.attached = .ok l) :
    let v := (start m registry generation).play c turns
    let after := v.next c .look
    (after.generation = v.generation + 1 ↔ Display.sameList l v.latest = false) ∧
    (v.IsUnsurprised →
      (after.machine.registry.displays ≠ v.announced → after.generation = v.generation + 1) ∧
      (after.next c .tell).news.displays = (after.next c .tell).machine.registry.displays) := by
  intro v after
  have hkeeps : v.KeepsNews := (KeepsNews.start m registry generation).play turns
  have hheld := hkeeps.held
  refine ⟨?_, fun hun => ⟨fun hchanged => ?_, displays_tell hkeeps.look hun.look⟩⟩
  · rcases v.look_cases with ⟨hlook, hsame⟩ | ⟨x, hx, hother, hlook⟩
    · have hgeneration : after.generation = v.generation := congrArg Vigil.generation hlook
      simp [hgeneration, ← hheld, hsame l hl]
    · have hgeneration : after.generation = v.generation + 1 := congrArg Vigil.generation hlook
      cases hl.symm.trans hx
      simp [hgeneration, ← hheld, hother]
  · rcases v.look_cases with ⟨hlook, -⟩ | ⟨x, -, -, hlook⟩
    · refine absurd ?_ hchanged
      show v.look.machine.registry.displays = v.announced
      rw [hlook, hheld]
      exact latest_of_unsurprised hun
    · exact congrArg Vigil.generation hlook

end Vigil

def Display.second : Display := ⟨"D2", "Display D2", ⟨2, 0, 2, 1⟩, false, default⟩

namespace Vigil

/-- A capture fails, and a second display is attached afterwards. -/
def attachedLater : List Turn := (Move.pass (.failed "lost" false) 1 ++ [Move.attach [.small, .second]]).map .loop

/-- A second display is attached, and a capture fails before the agent looks. -/
def attachedBefore : List Turn := (Move.attach [.small, .second] :: Move.pass (.failed "lost" false) 1).map .loop

theorem change_announced_later :
    let v := (start .small .small 0).play .plain attachedLater
    let after := v.next .plain .look
    enumerate v.machine.attached = .ok [.small, .second] ∧ v.found = [[.small]] ∧
    after.generation = v.generation + 1 ∧ (after.next .plain .tell).news.displays = [.small, .second] := by
  have hl : enumerate ((start .small .small 0).play .plain attachedLater).machine.attached = .ok [.small, .second] := rfl
  obtain ⟨hraised, hun⟩ := change_announced .plain .small .small 0 attachedLater hl
  refine ⟨hl, by decide, hraised.mpr (by decide), ?_⟩
  rw [(hun (by decide)).2]
  decide

/-- The look finds the list that the loop has read, and the viewer is not told. -/
theorem change_not_announced :
    let v := (start .small .small 0).play .plain attachedBefore
    let after := v.next .plain .look
    enumerate v.machine.attached = .ok [.small, .second] ∧
    after.machine.registry.displays = [.small, .second] ∧ v.announced = [.small] ∧
    after.generation = v.generation ∧ (after.next .plain .tell).news.displays = [.small] :=
  ⟨rfl, by decide, by decide, by decide, by decide⟩

end Vigil
end Screencast
