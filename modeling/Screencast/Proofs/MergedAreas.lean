import Screencast.Proofs.ExactChange

/-!
# Merged areas

To merge areas is to take the smallest rectangle around all their pixels and to cut it to the bounds. So what
is merged depends on the pixels alone: on no order, no grouping, and on none of the ways to write an area
without pixels.
-/

namespace Screencast

namespace Rect

variable {a b c r : Rect} {P Q : Nat → Nat → Prop} {px py : Nat}

/-- The pixel lies between the edges. -/
def Encloses (r : Rect) (px py : Nat) : Prop :=
  (r.x.toNat ≤ px ∧ px < r.right.toNat) ∧ (r.y.toNat ≤ py ∧ py < r.bottom.toNat)

theorem encloses_iff (h : r.Fits) (px py : Nat) : r.Encloses px py ↔ r.Covers px py := by
  unfold Encloses Covers
  rw [toNat_right h, toNat_bottom h]

theorem covers_intersect_edges (ha : a.Fits) : (a.intersect b).Covers px py ↔ a.Covers px py ∧ b.Encloses px py := by
  unfold intersect
  rw [covers_ofEdges, toNat_max, toNat_max, toNat_min, toNat_min, toNat_right ha, toNat_bottom ha]
  simp only [Covers, Encloses, Nat.max_le, Nat.lt_min]
  omega

theorem covers_last (h : r.isEmpty = false) :
    r.Covers (r.x.toNat + r.width.toNat - 1) (r.y.toNat + r.height.toNat - 1) := by
  have hcorner := covers_corner h
  unfold Covers at *
  omega

/-- Rectangles are told by their pixels, if there is one way only to write those without any. -/
theorem eq_of_covers (ha : a.isEmpty = true → a = empty) (hb : b.isEmpty = true → b = empty)
    (h : ∀ px py, a.Covers px py ↔ b.Covers px py) : a = b := by
  cases hae : a.isEmpty with
  | true =>
    cases hbe : b.isEmpty with
    | true => rw [ha hae, hb hbe]
    | false =>
      have hc := (h _ _).mpr (covers_corner hbe)
      rw [hc.nonempty] at hae
      cases hae
  | false =>
    have hbe := ((h _ _).mp (covers_corner hae)).nonempty
    have hnear := (h _ _).mp (covers_corner hae)
    have hfar := (h _ _).mp (covers_last hae)
    have hnear' := (h _ _).mpr (covers_corner hbe)
    have hfar' := (h _ _).mpr (covers_last hbe)
    unfold Covers at hnear hfar hnear' hfar'
    refine eq_of_edges (UInt32.toNat_inj.mp ?_) (UInt32.toNat_inj.mp ?_) ?_ ?_ <;> omega

theorem ofEdges_eq_empty {left top right bottom : UInt32} (h : (ofEdges left top right bottom).isEmpty = true) :
    ofEdges left top right bottom = empty := by
  rcases ofEdges_cases left top right bottom with ⟨he, -⟩ | ⟨-, -, hw, hh, hl, ht⟩
  · exact he
  · rw [isEmpty_iff] at h
    omega

theorem intersect_eq_of_covers (h : ∀ px py, (a.intersect r).Covers px py ↔ (b.intersect r).Covers px py) :
    a.intersect r = b.intersect r :=
  eq_of_covers ofEdges_eq_empty ofEdges_eq_empty h

/-! ### Hulls -/

theorem IsAround.covers_iff (ha : a.IsAround P) (hb : b.IsAround P) (px py : Nat) :
    a.Covers px py ↔ b.Covers px py :=
  ⟨ha.least b hb.covers px py, hb.least a ha.covers px py⟩

theorem IsAround.congr (h : a.IsAround P) (hPQ : ∀ x y, P x y ↔ Q x y) : a.IsAround Q := by
  have heq : P = Q := funext fun x => funext fun y => propext (hPQ x y)
  exact heq ▸ h

theorem isAround_self (r : Rect) : r.IsAround r.Covers := ⟨fun _ _ h => h, fun _ h => h⟩

theorem isAround_union (ha : a.Fits) (hb : b.Fits) : (a.union b).IsAround fun x y => a.Covers x y ∨ b.Covers x y := by
  refine ⟨fun x y => covers_union_of ha hb, fun other ho x y hxy => ?_⟩
  have hoa : ∀ x y, a.Covers x y → other.Covers x y := fun x y h => ho x y (.inl h)
  have hob : ∀ x y, b.Covers x y → other.Covers x y := fun x y h => ho x y (.inr h)
  cases hae : a.isEmpty with
  | true =>
    rw [union, if_pos hae] at hxy
    exact hob x y hxy
  | false =>
    cases hbe : b.isEmpty with
    | true =>
      rw [union, if_neg (by rw [hae]; decide), if_pos hbe] at hxy
      exact hoa x y hxy
    | false =>
      rw [covers_union ha hb hae hbe] at hxy
      have hnear := hoa _ _ (covers_corner hae)
      have hfar := hoa _ _ (covers_last hae)
      have hnear' := hob _ _ (covers_corner hbe)
      have hfar' := hob _ _ (covers_last hbe)
      unfold Covers at hnear hfar hnear' hfar' ⊢
      omega

theorem IsAround.union (ha : a.IsAround P) (hb : b.IsAround Q) (hfa : a.Fits) (hfb : b.Fits) :
    (a.union b).IsAround fun x y => P x y ∨ Q x y := by
  have h := isAround_union hfa hfb
  refine ⟨fun x y hxy => h.covers x y (hxy.imp (ha.covers x y) (hb.covers x y)), fun other ho => ?_⟩
  refine h.least other fun x y hxy => ?_
  rcases hxy with hxy | hxy
  · exact ha.least other (fun x y hp => ho x y (.inl hp)) x y hxy
  · exact hb.least other (fun x y hq => ho x y (.inr hq)) x y hxy

end Rect

/-! ### Lists -/

section Merged

variable {rects others : List Rect} {bounds hull merged : Rect}

/-- The pixel is one of an area of the list. -/
def IsCovered (rects : List Rect) (x y : Nat) : Prop := ∃ r ∈ rects, r.Covers x y

theorem isAround_foldl_union {P : Nat → Nat → Prop} {start : Rect} (h : ∀ r ∈ rects, r.Fits) (hs : start.Fits)
    (hP : start.IsAround P) : (rects.foldl Rect.union start).IsAround fun x y => P x y ∨ IsCovered rects x y := by
  -- The accumulator is the hull of what has been passed.
  induction rects generalizing start P with
  | nil => exact hP.congr fun x y => by simp [IsCovered]
  | cons r rest ih =>
    have hr := h r List.mem_cons_self
    have hstep := hP.union (Rect.isAround_self r) hs hr
    refine (ih (fun x hx => h x (List.mem_cons_of_mem r hx)) (Rect.fits_union hs hr) hstep).congr fun x y => ?_
    simp only [IsCovered, List.mem_cons, exists_eq_or_imp, or_assoc]

/-- Areas without pixels do not count. -/
theorem isCovered_iff_of_mem (h : ∀ r, r.isEmpty = false → (r ∈ others ↔ r ∈ rects)) (x y : Nat) :
    IsCovered others x y ↔ IsCovered rects x y := by
  constructor
  · rintro ⟨r, hr, hc⟩
    exact ⟨r, (h r hc.nonempty).mp hr, hc⟩
  · rintro ⟨r, hr, hc⟩
    exact ⟨r, (h r hc.nonempty).mpr hr, hc⟩

/-- The smallest rectangle around the areas, before it is cut. -/
def hullOf (rects : List Rect) : Rect := (rects.filter fun r => !r.isEmpty).foldl Rect.union Rect.empty

theorem fits_hullOf (h : ∀ r ∈ rects, r.Fits) : (hullOf rects).Fits :=
  fits_foldl_union (by decide) fun r hr => h r (List.mem_filter.mp hr).1

theorem isAround_hullOf (h : ∀ r ∈ rects, r.Fits) : (hullOf rects).IsAround (IsCovered rects) := by
  have hempty : Rect.empty.IsAround fun _ _ => False :=
    ⟨fun _ _ => False.elim, fun _ _ x y hc => absurd hc (Rect.not_covers_empty x y)⟩
  have hfit : ∀ r ∈ rects.filter fun r => !r.isEmpty, r.Fits := fun r hr => h r (List.mem_filter.mp hr).1
  refine (isAround_foldl_union hfit (by decide) hempty).congr fun x y => ?_
  rw [false_or]
  exact isCovered_iff_of_mem (fun r hr => by simp [hr]) x y

theorem unionWithin_eq (rects : List Rect) (bounds : Rect) :
    unionWithin rects bounds = (hullOf rects).intersect bounds := rfl

/-- What is merged depends on the hull alone. -/
theorem unionWithin_congr (ho : ∀ r ∈ others, r.Fits) (h : ∀ r ∈ rects, r.Fits)
    (hsame : (hullOf others).IsAround (IsCovered rects)) : unionWithin others bounds = unionWithin rects bounds := by
  have hhull := hsame.covers_iff (isAround_hullOf h)
  rw [unionWithin_eq, unionWithin_eq]
  refine Rect.intersect_eq_of_covers fun px py => ?_
  rw [Rect.covers_intersect_edges (fits_hullOf ho), Rect.covers_intersect_edges (fits_hullOf h)]
  exact and_congr_left' (hhull px py)

/-- Areas brought together two by two. -/
inductive Grouping where
  | one (r : Rect)
  | join (a b : Grouping)

namespace Grouping

def areas : Grouping → List Rect
  | one r => [r]
  | join a b => a.areas ++ b.areas

def union : Grouping → Rect
  | one r => r
  | join a b => a.union.union b.union

variable {g : Grouping} {groups : List Grouping}

theorem fits_union (h : ∀ r ∈ g.areas, r.Fits) : g.union.Fits := by
  induction g with
  | one r => exact h r (List.mem_singleton_self r)
  | join a b iha ihb =>
    simp only [areas, List.mem_append] at h
    exact Rect.fits_union (iha fun r hr => h r (.inl hr)) (ihb fun r hr => h r (.inr hr))

theorem isAround_union (h : ∀ r ∈ g.areas, r.Fits) : g.union.IsAround (IsCovered g.areas) := by
  induction g with
  | one r => exact (Rect.isAround_self r).congr fun x y => by simp [IsCovered, areas]
  | join a b iha ihb =>
    simp only [areas, List.mem_append] at h
    have ha : ∀ r ∈ a.areas, r.Fits := fun r hr => h r (.inl hr)
    have hb : ∀ r ∈ b.areas, r.Fits := fun r hr => h r (.inr hr)
    refine ((iha ha).union (ihb hb) (fits_union ha) (fits_union hb)).congr fun x y => ?_
    simp only [IsCovered, areas, List.mem_append, or_and_right, exists_or]

theorem fits_unions (h : ∀ g ∈ groups, ∀ r ∈ g.areas, r.Fits) : ∀ r ∈ groups.map union, r.Fits := by
  intro r hr
  obtain ⟨g, hg, rfl⟩ := List.mem_map.mp hr
  exact fits_union (h g hg)

/-- The hull of the hulls of the groups is the hull of all of their areas. -/
theorem isAround_hullOf_groups (h : ∀ g ∈ groups, ∀ r ∈ g.areas, r.Fits) :
    (hullOf (groups.map union)).IsAround (IsCovered (groups.flatMap areas)) := by
  have hhull := isAround_hullOf (fits_unions h)
  constructor
  · rintro x y ⟨r, hr, hc⟩
    obtain ⟨g, hg, hrg⟩ := List.mem_flatMap.mp hr
    exact hhull.covers x y ⟨_, List.mem_map_of_mem hg, (isAround_union (h g hg)).covers x y ⟨r, hrg, hc⟩⟩
  · intro other ho
    refine hhull.least other ?_
    rintro x y ⟨r, hr, hc⟩
    obtain ⟨g, hg, rfl⟩ := List.mem_map.mp hr
    refine (isAround_union (h g hg)).least other ?_ x y hc
    rintro x y ⟨r, hrg, hc⟩
    exact ho x y ⟨r, List.mem_flatMap.mpr ⟨g, hg, hrg⟩, hc⟩

end Grouping

/-- `merged` is the part within the bounds of the smallest rectangle around the areas. -/
structure IsMerged (rects : List Rect) (bounds merged : Rect) : Prop where
  exact : ∃ hull : Rect, hull.IsAround (IsCovered rects) ∧
    ∀ x y, merged.Covers x y ↔ bounds.Encloses x y ∧ hull.Covers x y
  covers : ∀ r ∈ rects, ∀ x y, r.Covers x y → bounds.Encloses x y → merged.Covers x y
  within : ∀ x y, merged.Covers x y → bounds.Encloses x y
  meets : merged.isEmpty = true → ∀ r ∈ rects, ∀ x y, r.Covers x y → ¬bounds.Encloses x y

theorem isMerged_of_hull (hh : hull.IsAround (IsCovered rects))
    (h : ∀ x y, merged.Covers x y ↔ bounds.Encloses x y ∧ hull.Covers x y) : IsMerged rects bounds merged := by
  have hcovers : ∀ r ∈ rects, ∀ x y, r.Covers x y → bounds.Encloses x y → merged.Covers x y :=
    fun r hr x y hc hb => (h x y).mpr ⟨hb, hh.covers x y ⟨r, hr, hc⟩⟩
  refine ⟨⟨hull, hh, h⟩, hcovers, fun x y hc => ((h x y).mp hc).1, fun he r hr x y hc hb => ?_⟩
  rw [(hcovers r hr x y hc hb).nonempty] at he
  cases he

end Merged

variable {rects : List Rect}

/-- Areas whose far edges are words are merged to the part within the bounds of the smallest rectangle around their
pixels. Other lists with the same areas, those without pixels apart, and areas brought together beforehand in any
groups are merged to the same rectangle. What lies between the edges of the bounds are its pixels, if its far edges
are words too. -/
theorem unionWithin_exact (h : ∀ r ∈ rects, r.Fits) (bounds : Rect) :
    IsMerged rects bounds (unionWithin rects bounds) ∧
      (∀ others : List Rect, (∀ r ∈ others, r.Fits) → (∀ r, r.isEmpty = false → (r ∈ others ↔ r ∈ rects)) →
        unionWithin others bounds = unionWithin rects bounds) ∧
      (∀ groups : List Grouping, groups.flatMap Grouping.areas = rects →
        unionWithin (groups.map Grouping.union) bounds = unionWithin rects bounds) ∧
      (bounds.Fits → ∀ x y, bounds.Encloses x y ↔ bounds.Covers x y) := by
  refine ⟨isMerged_of_hull (isAround_hullOf h) fun x y => ?_, fun others ho hsame => ?_, fun groups hgroups => ?_,
    Rect.encloses_iff⟩
  · rw [unionWithin_eq, Rect.covers_intersect_edges (fits_hullOf h), and_comm]
  · exact unionWithin_congr ho h ((isAround_hullOf ho).congr (isCovered_iff_of_mem hsame))
  · subst hgroups
    have hgroup : ∀ g ∈ groups, ∀ r ∈ g.areas, r.Fits := fun g hg r hr => h r (List.mem_flatMap.mpr ⟨g, hg, hr⟩)
    exact unionWithin_congr (Grouping.fits_unions hgroup) h (Grouping.isAround_hullOf_groups hgroup)

/-- Two areas that stand apart, one of them partly outside the bounds, and one without pixels. -/
theorem unionWithin_exact_apart :
    let rects : List Rect := [⟨6, 1, 9, 1⟩, ⟨50, 50, 0, 7⟩, ⟨2, 4, 1, 2⟩]
    (∀ r ∈ rects, r.Fits) ∧ unionWithin rects ⟨0, 0, 8, 8⟩ = ⟨2, 1, 6, 5⟩ ∧
      IsMerged rects ⟨0, 0, 8, 8⟩ ⟨2, 1, 6, 5⟩ ∧
      unionWithin [⟨2, 4, 1, 2⟩, ⟨6, 1, 9, 1⟩, ⟨2, 4, 1, 2⟩] ⟨0, 0, 8, 8⟩ = unionWithin rects ⟨0, 0, 8, 8⟩ := by
  intro rects
  have hfits : ∀ r ∈ rects, r.Fits := by decide
  have hmerged : unionWithin rects ⟨0, 0, 8, 8⟩ = ⟨2, 1, 6, 5⟩ := by decide
  obtain ⟨hexact, hothers, -, -⟩ := unionWithin_exact hfits ⟨0, 0, 8, 8⟩
  rw [hmerged] at hexact
  refine ⟨hfits, hmerged, hexact, hothers _ (by decide) fun r hr => ?_⟩
  -- The area without pixels is the one that the lists do not share.
  simp only [rects, List.mem_cons, List.not_mem_nil, or_false]
  constructor
  · rintro (rfl | rfl | rfl) <;> simp
  · rintro (rfl | rfl | rfl)
    · simp
    · cases hr
    · simp

end Screencast
