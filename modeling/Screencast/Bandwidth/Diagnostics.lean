/-!
# Diagnostics

Named texts, in the order of their names and each name once. The order is part of the type, so
two diagnostics are equal exactly when they name the same texts.
-/

namespace Screencast

/-- Named texts in the order of their names. -/
structure Diagnostics where
  entries : List (String × String)
  sorted : entries.Pairwise fun a b => a.1 < b.1
  deriving DecidableEq

namespace Diagnostics

def empty : Diagnostics := ⟨[], List.Pairwise.nil⟩

instance : Inhabited Diagnostics := ⟨empty⟩

/-- The entries with a text under a name, in the place of an older one. -/
def insertInto (name text : String) : List (String × String) → List (String × String)
  | [] => [(name, text)]
  | e :: rest =>
    if name < e.1 then (name, text) :: e :: rest
    else if name = e.1 then (name, text) :: rest
    else e :: insertInto name text rest

theorem mem_insertInto {name text : String} {e : String × String} {l : List (String × String)}
    (h : e ∈ insertInto name text l) : e = (name, text) ∨ e ∈ l := by
  induction l with
  | nil => exact Or.inl (List.mem_singleton.mp h)
  | cons a rest ih =>
    unfold insertInto at h
    split at h
    · exact List.mem_cons.mp h
    · split at h
      · exact (List.mem_cons.mp h).imp_right (List.mem_cons_of_mem a)
      · rcases List.mem_cons.mp h with h | h
        · exact Or.inr (h ▸ List.mem_cons_self)
        · exact (ih h).imp_right (List.mem_cons_of_mem a)

theorem sorted_insertInto (name text : String) {l : List (String × String)}
    (h : l.Pairwise fun a b => a.1 < b.1) :
    (insertInto name text l).Pairwise fun a b => a.1 < b.1 := by
  induction l with
  | nil => exact List.pairwise_singleton _ _
  | cons a rest ih =>
    obtain ⟨ha, hrest⟩ := List.pairwise_cons.mp h
    unfold insertInto
    split
    · rename_i hlt
      refine List.pairwise_cons.mpr ⟨fun b hb => ?_, h⟩
      rcases List.mem_cons.mp hb with rfl | hb
      · exact hlt
      · exact String.lt_trans hlt (ha b hb)
    · rename_i hge
      split
      · rename_i heq
        exact List.pairwise_cons.mpr ⟨fun b hb => heq ▸ ha b hb, hrest⟩
      · rename_i hne
        refine List.pairwise_cons.mpr ⟨fun b hb => ?_, ih hrest⟩
        rcases mem_insertInto hb with rfl | hb
        · have hle : a.1 ≤ name := String.not_lt.mp hge
          exact Decidable.byContradiction fun hn =>
            hne (String.le_antisymm (String.not_lt.mp hn) hle)
        · exact ha b hb

/-- The diagnostics with a text under a name. -/
def insert (d : Diagnostics) (name text : String) : Diagnostics :=
  ⟨insertInto name text d.entries, sorted_insertInto name text d.sorted⟩

/-- The diagnostics of a list of entries; of a name given twice the last text counts. -/
def ofList (l : List (String × String)) : Diagnostics := l.foldl (fun d e => d.insert e.1 e.2) empty

def get? (d : Diagnostics) (name : String) : Option String :=
  (d.entries.find? fun e => e.1 == name).map Prod.snd

end Diagnostics
end Screencast
