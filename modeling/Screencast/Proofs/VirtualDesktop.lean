import Mathlib.Order.Bounds.Basic
import Screencast.Display.Registry

/-!
# The virtual desktop

The area around all displays. Each of its four edges is the outermost one of the list, also where the display
that it belongs to has no pixels. A union tells its size in words and cuts off what is larger, so a union of
unions is right only if none on the way was cut: the edges of each are edges of displays, and these are near
enough to each other.
-/

namespace Screencast

namespace Area

variable {a b : Area} {l m : List Area}

/-- Where the areas of the list have this edge. -/
def edges (edge : Area → Int) (l : List Area) : Set Int := {x | ∃ a ∈ l, edge a = x}

/-- The area's edges are the outermost ones of the list. -/
structure IsBox (l : List Area) (b : Area) : Prop where
  left : IsLeast (edges (fun a => a.left.toInt) l) b.left.toInt
  top : IsLeast (edges (fun a => a.top.toInt) l) b.top.toInt
  right : IsGreatest (edges right l) b.right
  bottom : IsGreatest (edges bottom l) b.bottom

/-- A size can tell how far the areas of the list reach. -/
def SpanFits (l : List Area) : Prop :=
  ∀ a ∈ l, ∀ b ∈ l, b.right - a.left.toInt < 2 ^ 32 ∧ b.bottom - a.top.toInt < 2 ^ 32

instance (l : List Area) : Decidable (SpanFits l) := inferInstanceAs (Decidable (∀ a ∈ l, ∀ b ∈ l, _ ∧ _))

/-- `a` lies between the edges of `b`. -/
structure Encloses (b a : Area) : Prop where
  left : b.left.toInt ≤ a.left.toInt
  top : b.top.toInt ≤ a.top.toInt
  right : a.right ≤ b.right
  bottom : a.bottom ≤ b.bottom

/-- The area comes of those of the list by unions of two, in some order and some grouping. -/
inductive IsUnionOf : List Area → Area → Prop where
  | one (a : Area) : IsUnionOf [a] a
  | join {l m : List Area} {a b : Area} : IsUnionOf l a → IsUnionOf m b → IsUnionOf (l ++ m) (a.union b)
  | reorder {l m : List Area} {a : Area} : l.Perm m → IsUnionOf l a → IsUnionOf m a

/-! ### Edges -/

theorem edges_singleton (edge : Area → Int) (a : Area) : edges edge [a] = {edge a} := by
  ext x
  simp [edges, eq_comm]

theorem edges_append (edge : Area → Int) (l m : List Area) : edges edge (l ++ m) = edges edge l ∪ edges edge m := by
  ext x
  simp [edges, or_and_right, exists_or]

theorem edges_congr (edge : Area → Int) (h : ∀ a, a ∈ l ↔ a ∈ m) : edges edge l = edges edge m := by
  simp only [edges, h]

theorem left_le_right (a : Area) : a.left.toInt ≤ a.right := by
  unfold right
  omega

theorem top_le_bottom (a : Area) : a.top.toInt ≤ a.bottom := by
  unfold bottom
  omega

theorem SpanFits.of_subset (h : SpanFits m) (hl : l ⊆ m) : SpanFits l :=
  fun a ha b hb => h a (hl ha) b (hl hb)

theorem SpanFits.width_lt {near far : Int} (h : SpanFits l) (hnear : near ∈ edges (fun a => a.left.toInt) l)
    (hfar : far ∈ edges right l) : far - near < 2 ^ 32 := by
  obtain ⟨a, ha, rfl⟩ := hnear
  obtain ⟨b, hb, rfl⟩ := hfar
  exact (h a ha b hb).1

theorem SpanFits.height_lt {near far : Int} (h : SpanFits l) (hnear : near ∈ edges (fun a => a.top.toInt) l)
    (hfar : far ∈ edges bottom l) : far - near < 2 ^ 32 := by
  obtain ⟨a, ha, rfl⟩ := hnear
  obtain ⟨b, hb, rfl⟩ := hfar
  exact (h a ha b hb).2

/-! ### One union -/

theorem toInt_min (x y : Int32) : (min x y).toInt = min x.toInt y.toInt := by
  show (if x ≤ y then x else y).toInt = min x.toInt y.toInt
  split
  · rename_i h
    rw [Int.min_eq_left (Int32.le_iff_toInt_le.mp h)]
  · rename_i h
    have hle : y.toInt ≤ x.toInt := Int32.le_iff_toInt_le.mp ((Int32.le_total x y).resolve_left h)
    rw [Int.min_eq_right hle]

theorem left_union (a b : Area) : (a.union b).left.toInt = min a.left.toInt b.left.toInt := toInt_min _ _

theorem top_union (a b : Area) : (a.union b).top.toInt = min a.top.toInt b.top.toInt := toInt_min _ _

/-- A size that is a word leads from the nearest edge to the farthest. -/
theorem add_size {near near' far far' : Int} (hle : near ≤ far) (hfit : max far far' - min near near' < 2 ^ 32) :
    min near near' + (UInt32.ofNat (max far far' - min near near').toNat).toNat = max far far' := by
  have hsize : UInt32.size = 2 ^ 32 := rfl
  have hword : (max far far' - min near near').toNat < UInt32.size := by omega
  rw [UInt32.toNat_ofNat_of_lt' hword]
  omega

theorem right_union (h : max a.right b.right - min a.left.toInt b.left.toInt < 2 ^ 32) :
    (a.union b).right = max a.right b.right := by
  unfold union
  simp only [right, toInt_min] at h ⊢
  exact add_size a.left_le_right h

theorem bottom_union (h : max a.bottom b.bottom - min a.top.toInt b.top.toInt < 2 ^ 32) :
    (a.union b).bottom = max a.bottom b.bottom := by
  unfold union
  simp only [bottom, toInt_min] at h ⊢
  exact add_size a.top_le_bottom h

/-- A union is not cut off where the areas that it is around are near enough to each other. -/
theorem IsBox.union (ha : IsBox l a) (hb : IsBox m b) (hfit : SpanFits (l ++ m)) : IsBox (l ++ m) (a.union b) := by
  have hleft := ha.left.union hb.left
  have htop := ha.top.union hb.top
  have hright := ha.right.union hb.right
  have hbottom := ha.bottom.union hb.bottom
  rw [← edges_append] at hleft htop hright hbottom
  -- The outermost edges belong to areas of the list, of which the span is known.
  have hwidth := hfit.width_lt hleft.1 hright.1
  have hheight := hfit.height_lt htop.1 hbottom.1
  constructor
  · rw [left_union]
    exact hleft
  · rw [top_union]
    exact htop
  · rw [right_union hwidth]
    exact hright
  · rw [bottom_union hheight]
    exact hbottom

/-! ### Boxes -/

theorem isBox_one (a : Area) : IsBox [a] a := by
  constructor <;> rw [edges_singleton]
  · exact isLeast_singleton
  · exact isLeast_singleton
  · exact isGreatest_singleton
  · exact isGreatest_singleton

theorem IsBox.congr (h : IsBox l b) (hmem : ∀ a, a ∈ l ↔ a ∈ m) : IsBox m b := by
  constructor <;> rw [← edges_congr _ hmem]
  · exact h.left
  · exact h.top
  · exact h.right
  · exact h.bottom

theorem IsBox.unique (ha : IsBox l a) (hb : IsBox l b) : a = b := by
  have hleft := ha.left.unique hb.left
  have htop := ha.top.unique hb.top
  have hright := ha.right.unique hb.right
  have hbottom := ha.bottom.unique hb.bottom
  obtain ⟨al, at', aw, ah⟩ := a
  obtain ⟨bl, bt, bw, bh⟩ := b
  simp only [Area.right, Area.bottom] at hleft htop hright hbottom
  obtain rfl : al = bl := Int32.toInt_inj.mp hleft
  obtain rfl : at' = bt := Int32.toInt_inj.mp htop
  obtain rfl : aw = bw := UInt32.toNat_inj.mp (by omega)
  obtain rfl : ah = bh := UInt32.toNat_inj.mp (by omega)
  rfl

theorem IsBox.encloses_iff (h : IsBox l b) (other : Area) : other.Encloses b ↔ ∀ a ∈ l, other.Encloses a := by
  constructor
  · intro hb a ha
    exact ⟨hb.left.trans (h.left.2 ⟨a, ha, rfl⟩), hb.top.trans (h.top.2 ⟨a, ha, rfl⟩),
      (h.right.2 ⟨a, ha, rfl⟩).trans hb.right, (h.bottom.2 ⟨a, ha, rfl⟩).trans hb.bottom⟩
  · intro hall
    obtain ⟨near, hnear, hl⟩ := h.left.1
    obtain ⟨upper, hupper, ht⟩ := h.top.1
    obtain ⟨far, hfar, hr⟩ := h.right.1
    obtain ⟨lower, hlower, hw⟩ := h.bottom.1
    exact ⟨hl ▸ (hall near hnear).left, ht ▸ (hall upper hupper).top, hr ▸ (hall far hfar).right,
      hw ▸ (hall lower hlower).bottom⟩

/-! ### Unions of many -/

/-- Whatever the order and the grouping, no union on the way is cut off. -/
theorem IsUnionOf.isBox (h : IsUnionOf l b) (hfit : SpanFits l) : IsBox l b := by
  induction h with
  | one a => exact isBox_one a
  | @join l m a b _ _ iha ihb =>
    have hl := hfit.of_subset (List.subset_append_left l m)
    have hm := hfit.of_subset (List.subset_append_right l m)
    exact (iha hl).union (ihb hm) hfit
  | reorder hperm _ ih => exact (ih (hfit.of_subset hperm.subset)).congr fun a => hperm.mem_iff

theorem IsUnionOf.foldl (h : IsUnionOf l a) (rest : List Area) : IsUnionOf (l ++ rest) (rest.foldl Area.union a) := by
  induction rest generalizing l a with
  | nil => simpa using h
  | cons r rest ih =>
    have hnext := ih (h.join (.one r))
    rwa [List.append_assoc, List.singleton_append] at hnext

theorem isUnionOf_span (h : l ≠ []) : IsUnionOf l (span l) := by
  cases l with
  | nil => exact absurd rfl h
  | cons a rest => exact (IsUnionOf.one a).foldl rest

end Area

namespace Registry

/-- The bounds of the virtual desktop are the smallest area that has all displays between its edges: each edge is the
outermost one of theirs. Unions of two displays' areas at a time lead to it in any order and any grouping. -/
theorem virtualBounds_exact {r : Registry} (hne : r.displays ≠ [])
    (hfit : Area.SpanFits (r.displays.map Display.area)) :
    let areas := r.displays.map Display.area
    Area.IsBox areas r.virtualBounds ∧
      (∀ a ∈ areas, r.virtualBounds.Encloses a) ∧
      (∀ other : Area, (∀ a ∈ areas, other.Encloses a) → other.Encloses r.virtualBounds) ∧
      (∀ s : Registry, s.displays.Perm r.displays → s.virtualBounds = r.virtualBounds) ∧
      ∀ joined, Area.IsUnionOf areas joined → joined = r.virtualBounds := by
  intro areas
  have hunion : Area.IsUnionOf areas r.virtualBounds := Area.isUnionOf_span (by simpa [areas] using hne)
  have hbox : Area.IsBox areas r.virtualBounds := hunion.isBox hfit
  have hself : r.virtualBounds.Encloses r.virtualBounds := ⟨le_rfl, le_rfl, le_rfl, le_rfl⟩
  refine ⟨hbox, (hbox.encloses_iff _).mp hself, fun other => (hbox.encloses_iff other).mpr, ?_, ?_⟩
  · intro s hperm
    have hareas : (s.displays.map Display.area).Perm areas := hperm.map Display.area
    have hsne : s.displays.map Display.area ≠ [] := by
      intro hnil
      exact hne (by simpa [hnil] using hperm.map Display.area)
    have hs : Area.IsUnionOf areas s.virtualBounds := .reorder hareas (Area.isUnionOf_span hsne)
    exact (hs.isBox hfit).unique hbox
  · intro joined hjoined
    exact (hjoined.isBox hfit).unique hbox

/-- A display left of the primary one, one that overlaps it, and one far above that has no pixels. -/
def spread : Registry :=
  ⟨[⟨"D1", "Display D1", ⟨0, 0, 1920, 1080⟩, true, default⟩, ⟨"D2", "Display D2", ⟨-1280, 100, 1280, 1024⟩, false, default⟩,
    ⟨"D3", "Display D3", ⟨1000, 500, 800, 600⟩, false, default⟩, ⟨"D4", "Display D4", ⟨3000, -2000, 0, 0⟩, false, default⟩],
    none⟩

theorem virtualBounds_exact_spread :
    let areas := spread.displays.map Display.area
    spread.displays ≠ [] ∧ Area.SpanFits areas ∧ spread.virtualBounds = ⟨-1280, -2000, 4280, 3124⟩ ∧
      Area.IsBox areas spread.virtualBounds ∧
      (∀ a ∈ areas, spread.virtualBounds.Encloses a) ∧
      (∀ other : Area, (∀ a ∈ areas, other.Encloses a) → other.Encloses spread.virtualBounds) ∧
      (∀ s : Registry, s.displays.Perm spread.displays → s.virtualBounds = spread.virtualBounds) ∧
      ∀ joined, Area.IsUnionOf areas joined → joined = spread.virtualBounds := by
  have hne : spread.displays ≠ [] := List.cons_ne_nil _ _
  have hfit : Area.SpanFits (spread.displays.map Display.area) := by decide
  exact ⟨hne, hfit, by decide, virtualBounds_exact hne hfit⟩

end Registry

/-- Displays at both ends of the desktop are one column too far apart for a width. -/
example : Area.span [⟨-2147483648, 0, 1, 1⟩, ⟨2147483647, 0, 1, 1⟩] = ⟨-2147483648, 0, 0, 1⟩ := by decide

end Screencast
