import Screencast.Proofs.Announcements

/-!
# Who selects a display

A registry is shared: whoever refreshes it asks the system first and stores the answer later, so that
two refreshes may overlap and the older answer may be stored last. Only the storing, the selecting and
the looking are single steps. The selected display is nevertheless always one of the list, and its device
gives way only to one that was asked for, or because the list that was stored lacks it.
-/

namespace Screencast

/-! ### Displays found in a list -/

theorem findDisplay_mem {name : String} {l : List Display} {d : Display} (h : findDisplay name l = some d) :
    d ∈ l :=
  List.mem_of_find?_eq_some h

theorem findDisplay_name {name : String} {l : List Display} {d : Display} (h : findDisplay name l = some d) :
    d.name = name := by
  have hname := List.find?_some h
  simpa using hname

theorem findDisplay_eq_none {name : String} {l : List Display} :
    findDisplay name l = none ↔ ∀ x ∈ l, x.name ≠ name := by
  simp [findDisplay]

theorem primaryDisplay_mem {l : List Display} {d : Display} (h : primaryDisplay l = some d) : d ∈ l := by
  rcases Option.or_eq_some_iff.mp h with hflagged | ⟨-, hfirst⟩
  · exact List.mem_of_find?_eq_some hflagged
  · exact List.mem_of_mem_head? hfirst

namespace Registry

variable {r : Registry}

/-- The selected display is one of the list, in all its fields. -/
def IsAttached (r : Registry) : Prop := ∀ d, r.selected = some d → d ∈ r.displays

theorem kept_mem {l : List Display} {d : Display} (h : r.kept l = some d) : d ∈ l := by
  obtain ⟨old, -, hfound⟩ := Option.bind_eq_some_iff.mp h
  exact findDisplay_mem hfound

theorem kept_name {l : List Display} {d : Display} (h : r.selected = some d) :
    (r.kept l).map Display.name = some d.name ∨ r.kept l = none ∧ ∀ x ∈ l, x.name ≠ d.name := by
  have hkept : r.kept l = findDisplay d.name l := by rw [kept, h, Option.bind_some]
  rw [hkept]
  cases hfound : findDisplay d.name l with
  | none => exact .inr ⟨rfl, findDisplay_eq_none.mp hfound⟩
  | some x => exact .inl (congrArg some (findDisplay_name hfound))

theorem isAttached_empty : empty.IsAttached := by
  intro d h
  cases h

theorem IsAttached.reload (h : r.IsAttached) (answer : Enumeration) : (r.reload answer).IsAttached := by
  cases answer with
  | error _ => exact h
  | ok l => exact fun d hd => kept_mem hd

theorem IsAttached.settingsChanged (h : r.IsAttached) (answer : Enumeration) :
    (r.settingsChanged answer).IsAttached := by
  cases answer with
  | error _ => exact h
  | ok l =>
    intro d hd
    rcases Option.or_eq_some_iff.mp hd with hkept | ⟨-, hprimary⟩
    · exact kept_mem hkept
    · exact primaryDisplay_mem hprimary

theorem IsAttached.selectPrimary (h : r.IsAttached) : r.selectPrimary.IsAttached := by
  intro d hd
  rcases Option.or_eq_some_iff.mp hd with hselected | ⟨-, hprimary⟩
  · exact h d hselected
  · exact primaryDisplay_mem hprimary

theorem selectPrimary_of_selected {d : Display} (h : r.selected = some d) : r.selectPrimary = r := by
  cases r
  cases h
  rfl

theorem select_cases (r : Registry) (name : String) :
    (∃ d ∈ r.displays, d.name = name ∧ r.select name = .ok (d, { r with selected := some d })) ∨
    (∀ x ∈ r.displays, x.name ≠ name) ∧ r.select name = .error (.displayNotFound name) := by
  unfold select
  cases hfound : r.find? name with
  | none => exact .inr ⟨findDisplay_eq_none.mp hfound, rfl⟩
  | some d => exact .inl ⟨d, findDisplay_mem hfound, findDisplay_name hfound, rfl⟩

end Registry

/-! ### A shared registry -/

/-- What becomes of a selected device that is gone: nothing is selected, or the primary display is. -/
inductive Refresh where
  | reload
  | settingsChanged
  deriving DecidableEq

def Refresh.store (r : Registry) (answer : Enumeration) : Refresh → Registry
  | .reload => r.reload answer
  | .settingsChanged => r.settingsChanged answer

structure SharedRegistry where
  registry : Registry
  /-- Refreshes that were answered and have stored nothing yet. -/
  underway : List (Refresh × Enumeration)

namespace SharedRegistry

/-- A single step of one of the parties. -/
inductive Turn where
  /-- A refresh begins; the system answers it. -/
  | ask (kind : Refresh) (answer : Enumeration)
  /-- One of the refreshes underway stores its answer, however old. -/
  | store (n : Nat)
  | select (name : String)
  /-- Someone asks for the selected display, the primary one if there is none. -/
  | look

/-- A new registry has the system's first answer. -/
def start (first : Enumeration) : SharedRegistry := ⟨.ofEnumeration first, []⟩

def store (s : SharedRegistry) (n : Nat) : SharedRegistry :=
  match s.underway[n]? with
  | some (kind, answer) => ⟨kind.store s.registry answer, s.underway.eraseIdx n⟩
  | none => s

def select (s : SharedRegistry) (name : String) : SharedRegistry :=
  match s.registry.select name with
  | .ok (_, r) => { s with registry := r }
  | .error _ => s

def next (s : SharedRegistry) : Turn → SharedRegistry
  | .ask kind answer => { s with underway := s.underway ++ [(kind, answer)] }
  | .store n => s.store n
  | .select name => s.select name
  | .look => { s with registry := s.registry.selectedOrPrimary.2 }

def play (s : SharedRegistry) (turns : List Turn) : SharedRegistry := turns.foldl next s

variable {s : SharedRegistry}

theorem store_of_underway {n : Nat} {kind : Refresh} {answer : Enumeration}
    (h : s.underway[n]? = some (kind, answer)) : (s.store n).registry = kind.store s.registry answer := by
  simp only [store, h]

theorem store_of_none {n : Nat} (h : s.underway[n]? = none) : s.store n = s := by
  simp only [store, h]

theorem select_of_ok {name : String} {d : Display} {r : Registry} (h : s.registry.select name = .ok (d, r)) :
    (s.select name).registry = r := by
  simp only [select, h]

theorem select_of_error {name : String} {e : StreamError} (h : s.registry.select name = .error e) :
    s.select name = s := by
  simp only [select, h]

/-! ### What each turn keeps -/

theorem isAttached_next (h : s.registry.IsAttached) (t : Turn) : (s.next t).registry.IsAttached := by
  cases t with
  | ask kind answer => exact h
  | look => exact h.selectPrimary
  | store n =>
    show (s.store n).registry.IsAttached
    cases hn : s.underway[n]? with
    | none => rwa [store_of_none hn]
    | some pending =>
      obtain ⟨kind, answer⟩ := pending
      rw [store_of_underway hn]
      cases kind with
      | reload => exact h.reload answer
      | settingsChanged => exact h.settingsChanged answer
  | select name =>
    show (s.select name).registry.IsAttached
    rcases s.registry.select_cases name with ⟨d, hd, -, hselect⟩ | ⟨-, hselect⟩
    · rw [select_of_ok hselect]
      intro x hx
      cases hx
      exact hd
    · rwa [select_of_error hselect]

theorem isAttached_play (h : s.registry.IsAttached) (turns : List Turn) : (s.play turns).registry.IsAttached := by
  induction turns generalizing s with
  | nil => exact h
  | cons t rest ih => exact ih (isAttached_next h t)

/-- A selected device is selected after a stored answer, unless the list that was stored lacks it. -/
theorem name_store {d : Display} (h : s.registry.selected = some d) (n : Nat) :
    (s.store n).registry.selected.map Display.name = some d.name ∨
    ∃ kind l, s.underway[n]? = some (kind, .ok l) ∧ (s.store n).registry.displays = l ∧
      ∀ x ∈ l, x.name ≠ d.name := by
  have hsame : s.registry.selected.map Display.name = some d.name := congrArg (Option.map Display.name) h
  cases hn : s.underway[n]? with
  | none =>
    rw [store_of_none hn]
    exact .inl hsame
  | some pending =>
    obtain ⟨kind, answer⟩ := pending
    rw [store_of_underway hn]
    cases answer with
    | error e => cases kind <;> exact .inl hsame
    | ok l =>
      rcases Registry.kept_name (l := l) h with hkept | ⟨-, hgone⟩
      · refine .inl ?_
        cases kind with
        | reload => exact hkept
        | settingsChanged =>
          obtain ⟨x, hx, hname⟩ := Option.map_eq_some_iff.mp hkept
          show ((s.registry.kept l).or (primaryDisplay l)).map Display.name = some d.name
          rw [hx, Option.some_or, Option.map_some, hname]
      · exact .inr ⟨kind, l, rfl, by cases kind <;> rfl, hgone⟩

theorem name_select {d : Display} (h : s.registry.selected = some d) (name : String) :
    (s.select name).registry.selected.map Display.name = some d.name ∨
    ∃ x ∈ s.registry.displays, x.name = name ∧ (s.select name).registry.selected = some x := by
  rcases s.registry.select_cases name with ⟨x, hx, hname, hselect⟩ | ⟨-, hselect⟩
  · rw [select_of_ok hselect]
    exact .inr ⟨x, hx, hname, rfl⟩
  · rw [select_of_error hselect, h]
    exact .inl rfl

/-- Whatever the parties do, the selected display is one of the list; failed answers and unknown names
change nothing; and a selected device stays selected until another one of the list is asked for or a list
without it is stored. -/
theorem selected_attached (first : Enumeration) (turns : List Turn) (t : Turn) :
    let s := (start first).play turns
    let after := s.next t
    (∀ d, s.registry.selected = some d → d ∈ s.registry.displays) ∧
    (∀ n kind e, t = .store n → s.underway[n]? = some (kind, .error e) → after.registry = s.registry) ∧
    (∀ name, t = .select name → (∀ x ∈ s.registry.displays, x.name ≠ name) →
      s.registry.select name = .error (.displayNotFound name) ∧ after = s) ∧
    ∀ d, s.registry.selected = some d → after.registry.selected.map Display.name ≠ some d.name →
      (∃ x ∈ s.registry.displays, t = .select x.name ∧ after.registry.selected = some x) ∨
      ∃ n kind l, t = .store n ∧ s.underway[n]? = some (kind, .ok l) ∧ after.registry.displays = l ∧
        ∀ x ∈ l, x.name ≠ d.name := by
  intro s after
  have hattached : s.registry.IsAttached :=
    isAttached_play (Registry.isAttached_empty.reload first) turns
  refine ⟨hattached, ?_, ?_, ?_⟩
  · rintro n kind e rfl hn
    have hstore : after.registry = kind.store s.registry (.error e) := store_of_underway hn
    rw [hstore]
    cases kind <;> rfl
  · rintro name rfl hunknown
    rcases s.registry.select_cases name with ⟨x, hx, hname, -⟩ | ⟨-, hselect⟩
    · exact absurd hname (hunknown x hx)
    · exact ⟨hselect, select_of_error hselect⟩
  · intro d hd hchanged
    have hsame : s.registry.selected.map Display.name = some d.name := congrArg (Option.map Display.name) hd
    cases t with
    | ask kind answer => exact absurd hsame hchanged
    | look =>
      have hlook : after.registry = s.registry := Registry.selectPrimary_of_selected hd
      rw [hlook] at hchanged
      exact absurd hsame hchanged
    | store n =>
      rcases name_store hd n with hkept | ⟨kind, l, hn, hl, hgone⟩
      · exact absurd hkept hchanged
      · exact .inr ⟨n, kind, l, rfl, hn, hl, hgone⟩
    | select name =>
      rcases name_select hd name with hkept | ⟨x, hx, rfl, hafter⟩
      · exact absurd hkept hchanged
      · exact .inl ⟨x, hx, rfl, hafter⟩

/-- Two refreshes overlap: the later answer lacks the selected device and is stored first, and the older
one, stored last, brings the device back into the list but not into the selection. -/
theorem selected_attached_overlapping :
    let s := (start (.ok [.small, .second])).play
      [.select "D2", .ask .settingsChanged (.ok [.small, .second]), .ask .reload (.ok [.small])]
    let after := s.next (.store 1)
    s.registry.selected = some .second ∧ after.registry = ⟨[.small], none⟩ ∧
      (after.next (.store 0)).registry = ⟨[.small, .second], some .small⟩ ∧
      ∃ n kind l, Turn.store 1 = .store n ∧ s.underway[n]? = some (kind, .ok l) ∧ after.registry.displays = l ∧
        ∀ x ∈ l, x.name ≠ Display.second.name := by
  refine ⟨by decide, by decide, by decide, ?_⟩
  rcases (selected_attached (.ok [.small, .second])
    [.select "D2", .ask .settingsChanged (.ok [.small, .second]), .ask .reload (.ok [.small])] (.store 1)).2.2.2
    .second (by decide) (by decide) with ⟨x, -, hturn, -⟩ | hstored
  · cases hturn
  · exact hstored

end SharedRegistry
end Screencast
