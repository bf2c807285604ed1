import Screencast.Proofs.Crop
import Screencast.Proofs.Trace

/-!
# The viewer's picture

A viewer takes a keyframe as its whole picture and draws a delta over the picture it has. What it
cannot decode, or has no picture for, leaves it without one.
-/

namespace Screencast

/-- Packed red, green, blue. -/
structure Picture where
  width : UInt32
  height : UInt32
  rgb : ByteArray
  deriving DecidableEq

def Frame.picture (f : Frame) : Picture := ⟨f.width, f.height, f.colours f.bounds⟩

/-- The picture with other colours in a region. -/
def Picture.paint (v : Picture) (r : Rect) (rgb : ByteArray) : Picture :=
  { v with
    rgb := Bytes.tabulate (v.width.toNat * v.height.toNat * 3) fun i =>
      let x := i / 3 % v.width.toNat
      let y := i / 3 / v.width.toNat
      if r.Covers x y then Bytes.getOrZero rgb (((y - r.y.toNat) * r.width.toNat + (x - r.x.toNat)) * 3 + i % 3)
      else Bytes.getOrZero v.rgb i }

/-- The picture after a payload. -/
def RegionPayload.show (c : Compressor) (p : RegionPayload) (before : Option Picture) : Option Picture :=
  match decodeRegion c p.data p.width p.height with
  | .error _ => none
  | .ok rgb =>
    if p.isKeyframe then some ⟨p.width, p.height, rgb⟩
    else before.bind fun v => if p.region.LiesIn v.width v.height then some (v.paint p.region rgb) else none

theorem show_keyframe_of_decode {c : Compressor} {p : RegionPayload} {rgb : ByteArray} {v : Option Picture}
    (h : decodeRegion c p.data p.width p.height = .ok rgb) (hk : p.isKeyframe = true) :
    p.show c v = some ⟨p.width, p.height, rgb⟩ := by
  unfold RegionPayload.show
  rw [h, hk]
  rfl

theorem show_delta_of_decode {c : Compressor} {p : RegionPayload} {rgb : ByteArray} {v : Picture}
    (h : decodeRegion c p.data p.width p.height = .ok rgb) (hk : p.isKeyframe = false)
    (hl : p.region.LiesIn v.width v.height) : p.show c (some v) = some (v.paint p.region rgb) := by
  unfold RegionPayload.show
  rw [h, hk]
  exact if_pos hl

/-- The picture after all payloads of the trace. -/
def view (c : Compressor) (t : List Event) : Option Picture := (payloads t).foldr (fun p v => p.show c v) none

/-- The picture of the latest capture. -/
def screen (t : List Event) : Option Picture := (captures t).head?.map fun x => x.2.frame.picture

theorem view_append {c : Compressor} {e : Option Event} (he : e.bind Event.payload? = none) (t : List Event) :
    view c (e.toList ++ t) = view c t := by
  unfold view
  rw [payloads_append he]

theorem view_sent (c : Compressor) (p : RegionPayload) (t : List Event) :
    view c (.sent p :: t) = p.show c (view c t) := by
  unfold view
  rw [payloads_cons]
  rfl

section Paint

variable {a b f : Frame} {r : Rect} {c : Compressor}

/-- Drawing a region that covers all differences turns the one picture into the other. -/
theorem paint_colours (ha : a.WellFormed) (hb : b.WellFormed) (hab : a.Alike b)
    (hd : ∀ x y, a.Differ b x y → r.Covers x y) : b.picture.paint r (a.colours r) = a.picture := by
  obtain ⟨hw, hh, hf⟩ := hab
  unfold Picture.paint Frame.picture
  simp only [Picture.mk.injEq]
  refine ⟨hw.symm, hh.symm, ?_⟩
  rw [← hw, ← hh]
  refine Bytes.tabulate_congr fun i hi => ?_
  obtain ⟨hx, hy⟩ := Frame.place_lt hi
  have hk : i % 3 < 3 := Nat.mod_lt _ (by decide)
  have h0 : (0 : UInt32).toNat = 0 := rfl
  simp only [Frame.bounds, h0, Nat.zero_add]
  split
  · rename_i hc
    exact Frame.getOrZero_colours hc hk
  · -- Outside the region nothing differs, and what the old picture has is right.
    rename_i hc
    rw [Frame.colourAt_of_not_differ ha hb ⟨hw, hh, hf⟩ hx hy hk fun h => hc (hd _ _ h)]
    unfold Frame.colours
    rw [Bytes.getOrZero_tabulate _ (by rw [Rect.area, ← hw, ← hh]; exact hi)]
    simp only [← hw, h0, Nat.zero_add]

theorem picture_eq (ha : a.WellFormed) (hb : b.WellFormed) (hab : a.Alike b) (hd : ∀ x y, ¬a.Differ b x y) :
    a.picture = b.picture := by
  obtain ⟨hw, hh, hf⟩ := hab
  unfold Frame.picture
  simp only [Picture.mk.injEq]
  refine ⟨hw, hh, ?_⟩
  unfold Frame.colours Frame.bounds
  rw [← hw, ← hh]
  refine Bytes.tabulate_congr fun i hi => ?_
  obtain ⟨hx, hy⟩ := Frame.place_lt hi
  have h0 : (0 : UInt32).toNat = 0 := rfl
  simp only [h0, Nat.zero_add]
  exact Frame.colourAt_of_not_differ ha hb ⟨hw, hh, hf⟩ hx hy (Nat.mod_lt _ (by decide)) (hd _ _)

/-- A region that was compressed without loss is decoded to its colours. -/
theorem decodeRegion_of_encodeRegion (hc : c.IsLossless) (h : f.WellFormed) (hl : r.LiesIn f.width f.height)
    (he : r.isEmpty = false) {q : UInt8} {data : ByteArray} (hd : f.encodeRegion c r q = .ok data) :
    decodeRegion c data r.width r.height = .ok (f.colours r) := by
  obtain ⟨other, hother, hdecode⟩ := Frame.encodeRegion_lossless hc h hl he q
  rw [hother] at hd
  cases hd
  exact hdecode

end Paint
end Screencast
