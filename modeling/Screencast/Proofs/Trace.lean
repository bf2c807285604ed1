import Screencast.Proofs.Order

/-!
# What a trace tells

The frames that were captured and the payloads that were sent, the latest first, and whether a
compression failed since the latest capture. `EverySent` speaks of each payload together with what
came before it.
-/

namespace Screencast

namespace Event

def capture? : Event → Option (Display × CapturedFrame)
  | .answered d (.captured f) => some (d, f)
  | _ => none

def payload? : Event → Option RegionPayload
  | .sent p => some p
  | _ => none

/-- Whether a compression failed, asked of the events that decide it. -/
def verdict? : Event → Option Bool
  | .refused _ => some true
  | .answered _ (.captured _) => some false
  | _ => none

theorem capture?_of_isQuiet {e : Event} (h : e.isQuiet = true) : e.capture? = none := by
  cases e with
  | answered d r => cases r <;> first | rfl | cases h
  | _ => rfl

theorem payload?_of_isQuiet {e : Event} (h : e.isQuiet = true) : e.payload? = none := by
  cases e <;> first | rfl | cases h

theorem verdict?_of_isQuiet {e : Event} (h : e.isQuiet = true) : e.verdict? = none := by
  cases e with
  | answered d r => cases r <;> first | rfl | cases h
  | refused => cases h
  | _ => rfl

end Event

def captures (t : List Event) : List (Display × CapturedFrame) := t.filterMap Event.capture?

def payloads (t : List Event) : List RegionPayload := t.filterMap Event.payload?

/-- A compression failed after the latest capture. -/
def isStale (t : List Event) : Bool := (t.findSome? Event.verdict?).getD false

theorem captures_cons (e : Event) (t : List Event) : captures (e :: t) = e.capture?.toList ++ captures t := by
  unfold captures
  rw [List.filterMap_cons]
  cases e.capture? <;> rfl

theorem payloads_cons (e : Event) (t : List Event) : payloads (e :: t) = e.payload?.toList ++ payloads t := by
  unfold payloads
  rw [List.filterMap_cons]
  cases e.payload? <;> rfl

theorem payloads_toList_append (e : Option Event) (t : List Event) :
    payloads (e.toList ++ t) = (e.bind Event.payload?).toList ++ payloads t := by
  cases e with
  | none => rfl
  | some x => exact payloads_cons x t

theorem isStale_cons (e : Event) (t : List Event) : isStale (e :: t) = e.verdict?.getD (isStale t) := by
  unfold isStale
  rw [List.findSome?_cons]
  cases e.verdict? <;> rfl

theorem captures_append {e : Option Event} (he : e.bind Event.capture? = none) (t : List Event) :
    captures (e.toList ++ t) = captures t := by
  cases e with
  | none => rfl
  | some x =>
    show captures (x :: t) = captures t
    rw [captures_cons, show x.capture? = none from he]
    rfl

theorem payloads_append {e : Option Event} (he : e.bind Event.payload? = none) (t : List Event) :
    payloads (e.toList ++ t) = payloads t := by
  cases e with
  | none => rfl
  | some x =>
    show payloads (x :: t) = payloads t
    rw [payloads_cons, show x.payload? = none from he]
    rfl

theorem isStale_append {e : Option Event} (he : e.bind Event.verdict? = none) (t : List Event) :
    isStale (e.toList ++ t) = isStale t := by
  cases e with
  | none => rfl
  | some x =>
    show isStale (x :: t) = isStale t
    rw [isStale_cons, show x.verdict? = none from he]
    rfl

/-- Nothing came of it: neither a capture nor a payload nor a refusal. -/
theorem Event.bind_of_isQuiet {e : Option Event} (h : e.all Event.isQuiet = true) :
    e.bind Event.capture? = none ∧ e.bind Event.payload? = none ∧ e.bind Event.verdict? = none := by
  cases e with
  | none => exact ⟨rfl, rfl, rfl⟩
  | some x => exact ⟨capture?_of_isQuiet h, payload?_of_isQuiet h, verdict?_of_isQuiet h⟩

/-- `Q` holds of each payload of the trace and of what came before it. -/
def EverySent (Q : RegionPayload → List Event → Prop) (t : List Event) : Prop :=
  ∀ later p earlier, t = later ++ .sent p :: earlier → Q p earlier

section EverySent

variable {Q : RegionPayload → List Event → Prop}

theorem everySent_nil : EverySent Q [] := by
  intro later p earlier h
  simp at h

theorem EverySent.cons {t : List Event} (h : EverySent Q t) {e : Event} (he : ∀ p, e = .sent p → Q p t) :
    EverySent Q (e :: t) := by
  intro later p earlier ht
  cases later with
  | nil =>
    obtain ⟨rfl, rfl⟩ := List.cons.inj ht
    exact he p rfl
  | cons x later => exact h later p earlier (List.cons.inj ht).2

theorem EverySent.append {t : List Event} (h : EverySent Q t) {e : Option Event} (he : e.bind Event.payload? = none) :
    EverySent Q (e.toList ++ t) := by
  cases e with
  | none => exact h
  | some x =>
    refine h.cons ?_
    rintro p rfl
    cases he

end EverySent
end Screencast
