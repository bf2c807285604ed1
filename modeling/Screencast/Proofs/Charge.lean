import Screencast.Proofs.Change
import Screencast.Proofs.InHand
import Screencast.Proofs.Quality
import Screencast.Proofs.Telemetry

/-!
# What keyframes cost

The events that cost a keyframe are counted by `charges`, and what the state of the loop may still call
for by `Run.owed`. A raised flag, a display other than the one last sent for, quality that fell, and a
baseline of another shape than the last capture each call for one keyframe; a capture that is to go out whole
finds one owed. With a keyframe in the making both of its outcomes have to be covered, the sending and
the refusal.
-/

namespace Screencast

section Turns

variable {α β : Type} [DecidableEq β]

/-- How often neighbours differ under `f`. -/
def turns (f : α → β) : List α → Nat
  | a :: b :: rest => (if f b = f a then 0 else 1) + turns f (b :: rest)
  | _ => 0

/-- One if what was noted, if anything was, is not what holds now. -/
def lag (now noted : Option β) : Nat := if noted = none ∨ noted = now then 0 else 1

theorem lag_none (now : Option β) : lag now none = 0 := if_pos (.inl rfl)

theorem lag_self (now : Option β) : lag now now = 0 := if_pos (.inr rfl)

/-- Something new costs a turn wherever it falls behind. -/
theorem lag_turns (f : α → β) (a : α) (l : List α) (noted : Option β) :
    lag (some (f a)) noted + turns f l ≤ lag (l.head?.map f) noted + turns f (a :: l) := by
  cases noted with
  | none =>
    rw [lag_none, lag_none]
    cases l with
    | nil => exact Nat.le_refl _
    | cons b rest => simp only [turns]; omega
  | some n =>
    cases l with
    | nil => simp only [lag, turns, List.head?_nil, Option.map_none]; split <;> simp
    | cons b rest =>
      by_cases hb : f b = f a
      · simp [lag, turns, hb]
      · have hturn : turns f (a :: b :: rest) = 1 + turns f (b :: rest) := by simp [turns, hb]
        have hlag : lag (some (f a)) (some n) ≤ 1 := by unfold lag; split <;> omega
        omega

end Turns

/-! ### Events that cost a keyframe -/

/-- Others asked for a keyframe, a capture failed or a compression failed. -/
def Event.isCharge : Event → Bool
  | .requested | .answered _ (.failed _ _) | .refused _ => true
  | _ => false

/-- Size and format. -/
def Frame.shape (f : Frame) : UInt32 × UInt32 × PixelFormat := (f.width, f.height, f.format)

/-- Requests, failures and refusals, and how often in a row captures came from another kind of source, passes
picked another display or area, and captured frames took another size or format. -/
def charges (t : List Event) : Nat :=
  t.countP Event.isCharge + turns (fun x => x.2.isUsingGpu) (captures t) + turns Display.mark (acquisitions t) +
    turns (fun x => x.2.frame.shape) (captures t)

def Event.isAnswer : Event → Bool
  | .answered _ _ => true
  | _ => false

/-- What came after the latest answer to a capture. -/
def lastPass (t : List Event) : List Event := t.takeWhile fun e => !e.isAnswer

def keyframes (t : List Event) : Nat := (payloads t).countP fun p => p.isKeyframe

/-- How often quality is lowered while the moves are made. -/
def Run.lowerings (c : Compressor) : Run → List Move → Nat
  | _, [] => 0
  | r, mv :: rest =>
    (if (r.next c mv).machine.controller.quality < r.machine.controller.quality then 1 else 0) +
      lowerings c (r.next c mv) rest

namespace Machine

variable {c : Compressor} {m after : Machine} {e : Option Event}

theorem memoryAtChoice_reductionsAt (m : Machine) (d : Display) (b : Bool) :
    (m.memoryAtChoice d b).reductionsAtKeyframe = m.memory.reductionsAtKeyframe := by
  unfold memoryAtChoice
  split <;> rfl

/-- How often quality falls is counted. -/
theorem reductions_move {mv : Move} (h : m.move c mv = some (after, e)) :
    after.controller.reductions =
      m.controller.reductions + if after.controller.quality < m.controller.quality then 1 else 0 := by
  cases mv with
  | tick =>
    cases h
    exact Controller.reductions_process m.controller m.now
  | _ =>
    obtain ⟨hquality, hreductions⟩ := quality_of_ne_tick h Move.noConfusion
    rw [hquality, hreductions, if_neg (UInt8.lt_irrefl _), Nat.add_zero]

end Machine

theorem Machine.new_reductions {s : PipelineSettings} {attached : List Display} {m : Machine}
    (h : Machine.new s attached = .ok m) : m.controller.reductions = 0 := by
  rw [Machine.new_controller h]
  rfl

/-! ### What is owed -/

/-- The keyframes that a phase may still call for, by the flag, by what a frame that goes out whole would leave behind,
and by all else that calls for one. -/
def Phase.owed (p : Phase) (flag : Bool) (gap : Frame → Nat) (debts : Nat) : Nat :=
  match p with
  | .lowering s _ => max (1 + gap s.frame) debts
  | .encodingKeyframe s _ | .sendingKeyframe s _ => max (1 + flag.toNat + gap s.frame) debts
  | .raising _ _ => 1 + debts
  | .choosing _ _ _ b => flag.toNat + b.toNat + debts
  | _ => flag.toNat + debts

/-- The frame that goes out whole. -/
def Phase.whole? : Phase → Option Frame
  | .lowering s _ | .encodingKeyframe s _ | .sendingKeyframe s _ => some s.frame
  | _ => none

theorem Phase.whole?_of_isOpen {p : Phase} (h : p.isOpen = true) : p.whole? = none := by
  cases p <;> first | rfl | cases h

namespace Run

/-- One if the latest capture has another shape. -/
def gap (r : Run) (f : Frame) : Nat := lag ((captures r.trace).head?.map fun x => x.2.frame.shape) (some f.shape)

def debts (r : Run) : Nat :=
  lag ((acquisitions r.trace).head?.map Display.mark) r.machine.memory.lastKeyframe +
  lag ((captures r.trace).head?.map fun x => x.2.frame.shape)
    (r.machine.memory.baseline.map fun b => b.frame.shape) +
  if r.machine.memory.reductionsAtKeyframe < r.machine.controller.reductions then 1 else 0

def owed (r : Run) : Nat := r.machine.phase.owed r.machine.isRequested r.gap r.debts

end Run

section Owed

variable {p : Phase} {flag : Bool} {gap : Frame → Nat} {debts n : Nat}

theorem owed_of_isOpen (h : p.isOpen = true) : p.owed flag gap debts = flag.toNat + debts := by
  cases p <;> first | rfl | cases h

theorem owed_mono {more : Nat} (h : more ≤ debts + n) : p.owed flag gap more ≤ p.owed flag gap debts + n := by
  cases p <;> simp only [Phase.owed] <;> omega

theorem owed_flag : p.owed true gap debts ≤ p.owed flag gap debts + 1 := by
  cases p <;> simp only [Phase.owed, Bool.toNat_true] <;> omega

end Owed

section Counts

variable {e : Option Event} {t : List Event}

theorem keyframes_append (he : e.bind Event.payload? = none) : keyframes (e.toList ++ t) = keyframes t := by
  unfold keyframes
  rw [payloads_append he]

theorem keyframes_sent (p : RegionPayload) (t : List Event) :
    keyframes (.sent p :: t) = keyframes t + p.isKeyframe.toNat := by
  unfold keyframes
  rw [payloads_cons]
  show (p :: payloads t).countP _ = _
  rw [List.countP_cons]
  cases p.isKeyframe <;> rfl

theorem charges_append (hc : e.bind Event.capture? = none) (ha : e.bind Event.acquired? = none) :
    charges (e.toList ++ t) = charges t + (e.any Event.isCharge).toNat := by
  unfold charges
  rw [captures_append hc, acquisitions_append ha]
  cases e with
  | none => rfl
  | some x =>
    show (x :: t).countP _ + _ + _ + _ = _
    rw [List.countP_cons]
    cases hx : x.isCharge with
    | false => simp [hx]
    | true =>
      simp only [hx, if_true, Option.any_some, Bool.toNat_true]
      omega

theorem charges_captured (d : Display) (f : CapturedFrame) (t : List Event) :
    charges (.answered d (.captured f) :: t) = t.countP Event.isCharge +
      turns (fun x => x.2.isUsingGpu) ((d, f) :: captures t) + turns Display.mark (acquisitions t) +
      turns (fun x => x.2.frame.shape) ((d, f) :: captures t) := by
  unfold charges
  rw [captures_cons, acquisitions_cons, List.countP_cons]
  rfl

theorem charges_acquired (d : Display) (t : List Event) :
    charges (.acquired d :: t) = t.countP Event.isCharge + turns (fun x => x.2.isUsingGpu) (captures t) +
      turns Display.mark (d :: acquisitions t) + turns (fun x => x.2.frame.shape) (captures t) := by
  unfold charges
  rw [captures_cons, acquisitions_cons, List.countP_cons]
  rfl

end Counts

theorem lag_eq_one {β : Type} [DecidableEq β] {now noted : Option β} {n : β} (hn : noted = some n) (h : now ≠ some n) :
    lag now noted = 1 := by
  subst hn
  unfold lag
  rw [if_neg]
  rintro (hnone | heq)
  · cases hnone
  · exact h heq.symm

theorem Memory.toNat_originChanged (m : Memory) (f : CapturedFrame) :
    (m.originChanged f).toNat = lag (some f.isUsingGpu) m.lastUsingGpu := by
  unfold originChanged lag
  cases m.lastUsingGpu with
  | none => rfl
  | some was => cases was <;> cases f.isUsingGpu <;> rfl

theorem alike_iff_shape {a b : Frame} : a.Alike b ↔ a.shape = b.shape := by
  simp only [Frame.Alike, Frame.shape, Prod.mk.injEq]

theorem shape_of_frame {l : List (Display × CapturedFrame)} {f : Frame}
    (h : (l.head?.map fun x => x.2.frame) = some f) : (l.head?.map fun x => x.2.frame.shape) = some f.shape := by
  obtain ⟨x, hx, rfl⟩ := Option.map_eq_some_iff.mp h
  rw [hx]
  rfl

namespace Run

variable {c : Compressor} {r : Run}

theorem gap_of_latest {f : Frame} (h : ((captures r.trace).head?.map fun x => x.2.frame) = some f) : r.gap f = 0 := by
  unfold gap
  rw [shape_of_frame h, lag_self]

/-- A refresh is due only if quality fell after the last keyframe. -/
def KeepsRefresh (r : Run) : Prop := r.machine.memory.needsRefresh = true →
  r.machine.memory.reductionsAtKeyframe < r.machine.controller.reductions

theorem debts_of_mark {mark : KeyframeMark} (hm : r.machine.memory.lastKeyframe = some mark)
    (h : ((acquisitions r.trace).head?.map Display.mark) ≠ some mark) : 1 ≤ r.debts := by
  have hlag := lag_eq_one hm h
  unfold debts
  omega

theorem debts_of_shape {b : Baseline} (hb : r.machine.memory.baseline = some b)
    (h : ((captures r.trace).head?.map fun x => x.2.frame.shape) ≠ some b.frame.shape) : 1 ≤ r.debts := by
  have hnoted : (r.machine.memory.baseline.map fun b => b.frame.shape) = some b.frame.shape := by
    rw [hb]
    rfl
  have hlag := lag_eq_one hnoted h
  unfold debts
  omega

theorem debts_of_reductions (h : r.machine.memory.reductionsAtKeyframe < r.machine.controller.reductions) :
    1 ≤ r.debts := by
  unfold debts
  rw [if_pos h]
  omega

/-- A display with another mark than the last keyframe's, and one whose throughput calls for a refresh. -/
theorem debts_of_reason {d : Display} {mark : KeyframeMark} {reason : KeyframeReason} {ratio : Float}
    (hq : r.KeepsRefresh) (hd : (acquisitions r.trace).head? = some d)
    (hm : r.machine.memory.lastKeyframe = some mark)
    (h : r.machine.memory.keyframeReason r.machine.controller ratio false d false = some reason) : 1 ≤ r.debts := by
  by_cases hmark : d.mark = mark
  · subst hmark
    have hdue : r.machine.memory.isRefreshDue r.machine.controller ratio = true := by
      refine Classical.byContradiction fun hno => ?_
      simp [Memory.keyframeReason, hm, Display.mark, hno] at h
    unfold Memory.isRefreshDue at hdue
    exact debts_of_reductions (hq (Bool.and_eq_true_iff.mp hdue).1)
  · refine debts_of_mark hm ?_
    rw [hd]
    exact fun heq => hmark (Option.some.inj heq)

/-- Where a capture is to go out whole, the state calls for a keyframe. -/
theorem owes_of_keyframe {t : Nat} {d : Display} {f : CapturedFrame} {b : Bool} {reason : KeyframeReason}
    (hi : r.machine.InOrder c) (hk : r.KeepsHand) (hq : r.KeepsRefresh) (hp : r.machine.phase = .choosing t d f b)
    (hc : r.machine.choice d f b = .keyframe reason) : 1 ≤ r.machine.isRequested.toNat + b.toNat + r.debts := by
  have hmarked := hi.isMarked
  unfold Machine.IsMarked at hmarked
  rw [hp] at hmarked
  cases hflag : r.machine.isRequested with
  | true =>
    rw [Bool.toNat_true]
    omega
  | false =>
    cases b with
    | true =>
      rw [Bool.toNat_true]
      omega
    | false =>
      -- Neither the flag nor the origin: the mark, the quality or the shape is the reason.
      obtain ⟨base, mark, -, hlast, -⟩ := hmarked hflag
      have hdebts : 1 ≤ r.debts := by
        unfold Machine.choice at hc
        rw [hflag] at hc
        split at hc
        · rename_i why hwhy
          exact debts_of_reason hq (hk.display d (by rw [hp]; rfl)) hlast hwhy
        · obtain ⟨previous, hprevious, hne⟩ := Memory.change_keyframe hc
          obtain ⟨held, hheld, -, rfl⟩ := Memory.baselineOf_eq_some hprevious
          refine debts_of_shape hheld ?_
          rw [shape_of_frame (hk.fresh f.frame (by rw [hp]; rfl))]
          exact fun heq => hne (alike_iff_shape.mpr (Option.some.inj heq))
      omega

theorem owed_of_phase {p : Phase} (h : r.machine.phase = p) : r.owed = p.owed r.machine.isRequested r.gap r.debts := by
  unfold owed
  rw [h]

end Run
end Screencast
