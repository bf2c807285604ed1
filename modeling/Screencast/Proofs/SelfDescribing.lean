import Screencast.Proofs.Baseline
import Screencast.Proofs.Size
import Screencast.Proofs.Viewer
import Screencast.Proofs.Zstd

/-!
# What a payload says of itself

A payload carries the place and the size of its region, and the coder cuts the region to the frame once
more before it compresses. The cut changes nothing: whichever way a region came about, it lies in its
frame and is not empty when it goes out. So the numbers of the payload are those of the compressed
picture, and a reader that decodes by them gets that picture.
-/

namespace Screencast

/-- What is compressed is decompressed to its size, up to the greatest size that the coder can name. -/
def Compressor.KeepsSize (c : Compressor) : Prop :=
  ∀ (rgb data : ByteArray) (width height : UInt32) (q : UInt8), rgb.size < 2 ^ 64 →
    rgb.size = width.toNat * height.toNat * 3 → c.compress rgb width height q = some data →
    ∃ out, c.decompress data = some out ∧ out.size = rgb.size

theorem Compressor.IsLossless.keepsSize {c : Compressor} (h : c.IsLossless) : c.KeepsSize := by
  intro rgb data width height q hsize _ hdata
  obtain ⟨other, hother, hout⟩ := h rgb width height q hsize
  rw [hother] at hdata
  cases hdata
  exact ⟨rgb, hout, rfl⟩

/-- The payload is the compressed region of the frame that its numbers say, and is decoded by them. -/
structure RegionPayload.Describes (p : RegionPayload) (c : Compressor) (f : Frame) : Prop where
  nonempty : p.region.isEmpty = false
  inside : p.region.LiesIn f.width f.height
  whole : p.isKeyframe = true → p.region = f.bounds
  unclamped : p.region.intersect f.bounds = p.region
  compressed : ∃ rgb q, f.cropRgb p.region = .ok rgb ∧ c.compress rgb p.width p.height q = some p.data
  decoded : ∃ out, decodeRegion c p.data p.width p.height = .ok out
  lossless : c.IsLossless → decodeRegion c p.data p.width p.height = f.cropRgb p.region

/-! ### Regions that were compressed -/

section Encoded

variable {c : Compressor} {f : Frame} {r : Rect} {q : UInt8} {data : ByteArray}

theorem Rect.nonempty_of_intersect {width height : UInt32} (hl : r.LiesIn width height)
    (h : (r.intersect ⟨0, 0, width, height⟩).isEmpty = false) : r.isEmpty = false :=
  ((Rect.covers_intersect hl.fits (Rect.liesIn_bounds width height).fits).mp (Rect.covers_corner h)).1.nonempty

theorem Frame.encodeRegion_ok (h : f.encodeRegion c r q = .ok data) :
    (r.intersect f.bounds).isEmpty = false ∧ ∃ rgb, f.cropRgb (r.intersect f.bounds) = .ok rgb ∧
      c.compress rgb (r.intersect f.bounds).width (r.intersect f.bounds).height (clampQuality q) = some data := by
  unfold encodeRegion at h
  dsimp only at h
  split at h
  · cases h
  · rename_i hne
    split at h
    · cases h
    · rename_i rgb hcrop
      split at h
      · rename_i out hcompress
        cases h
        exact ⟨Bool.eq_false_iff.mpr hne, rgb, hcrop, hcompress⟩
      · cases h

theorem decodeRegion_of_keepsSize (hc : c.KeepsSize) {rgb : ByteArray} {width height : UInt32}
    (hlt : rgb.size < 2 ^ 64) (hsize : rgb.size = width.toNat * height.toNat * 3)
    (h : c.compress rgb width height q = some data) : ∃ out, decodeRegion c data width height = .ok out := by
  obtain ⟨out, hout, hkept⟩ := hc rgb data width height q hlt hsize h
  refine ⟨out, ?_⟩
  unfold decodeRegion
  rw [hout]
  exact if_pos (hkept.trans hsize)

theorem describes_of_encodeRegion (hc : c.KeepsSize) (hf : f.WellFormed) {isKeyframe : Bool}
    (hl : r.LiesIn f.width f.height) (hwhole : isKeyframe = true → r = f.bounds)
    (h : f.encodeRegion c r q = .ok data) : (RegionPayload.ofRect r isKeyframe data).Describes c f := by
  obtain ⟨hmeets, rgb, hcrop, hcompress⟩ := Frame.encodeRegion_ok h
  have hne : r.isEmpty = false := Rect.nonempty_of_intersect hl hmeets
  have hcut : r.intersect f.bounds = r := Rect.intersect_eq_self hl hne
  have hcolours : f.cropRgb r = .ok (f.colours r) := Frame.cropRgb_ok hf hl hne
  rw [hcut] at hcrop hcompress
  obtain rfl : f.colours r = rgb := Except.ok.inj (hcolours.symm.trans hcrop)
  refine ⟨hne, hl, hwhole, hcut, ⟨_, _, hcolours, hcompress⟩, ?_, fun hlossless => ?_⟩
  · exact decodeRegion_of_keepsSize hc (Frame.size_colours_lt hf hl) (Frame.size_colours f r) hcompress
  · exact (decodeRegion_of_encodeRegion hlossless hf hl hne h).trans hcolours.symm

end Encoded

/-! ### Payloads of a run -/

namespace Run

variable {c : Compressor} {s : PipelineSettings}

/-- What is known of every payload: it was cut from a capture, a keyframe from all of it. -/
def CutsCapture (c : Compressor) (p : RegionPayload) (t : List Event) : Prop :=
  ∃ d f q, (d, f) ∈ captures t ∧ p.region.LiesIn f.frame.width f.frame.height ∧
    (p.isKeyframe = true → p.region = f.frame.bounds) ∧ f.frame.encodeRegion c p.region q = .ok p.data

theorem cutsCapture_of_keyframe {q : UInt8} {p : RegionPayload} {t : List Event} (h : ShowsCapture c q p t)
    (hk : p.isKeyframe = true) : CutsCapture c p t := by
  obtain ⟨_, ⟨n, d, f, hn, rfl, -⟩, hregion, hdata⟩ := h hk
  refine ⟨d, f, q, List.mem_of_getElem? hn, ?_, fun _ => hregion, ?_⟩
  · rw [hregion]
    exact Rect.liesIn_bounds _ _
  · rw [hregion]
    exact hdata

theorem cutsCapture_of_delta {p : RegionPayload} {t : List Event} (h : FitsCapture c p t)
    (hk : p.isKeyframe = false) : CutsCapture c p t := by
  obtain ⟨shipment, q, ⟨k, since, f, ⟨-, -, before, rfl⟩, hhead, hframe, -, hl⟩, hdata⟩ := h hk
  have hmem : (shipment.display, f) ∈ captures (since ++ .sent k :: before) := by
    unfold captures
    rw [List.filterMap_append]
    exact List.mem_append_left _ (List.mem_of_mem_head? hhead)
  refine ⟨shipment.display, f, q, hmem, hl, fun htrue => ?_, ?_⟩
  · rw [hk] at htrue
    cases htrue
  · rw [hframe]
    exact hdata

theorem everySent_cutsCapture {attached : List Display} {m : Machine} (h : Machine.new s attached = .ok m)
    (registry : Registry) (moves : List Move) :
    EverySent (CutsCapture c) ((start m registry).play c moves).trace := by
  have hkeeps : ((start m registry).play c moves).KeepsFrames c s ∧ ((start m registry).play c moves).KeepsBounds ∧
      EverySent (FitsCapture c) ((start m registry).play c moves).trace :=
    play_induction (P := fun r => r.KeepsFrames c s ∧ r.KeepsBounds ∧ EverySent (FitsCapture c) r.trace)
      (fun r e after hi hp hr =>
        ⟨keepsFrames_passage r e after hi hp hr.1, keepsBounds_passage r e after hi hp hr.2.1,
          fitsCapture_passage r e after hi hp hr.2.1 hr.2.2⟩)
      (start_inOrder h registry)
      ⟨start_keepsFrames h registry, start_keepsBounds h registry, everySent_nil⟩ (fun _ => trivial)
  intro later p earlier ht
  cases hk : p.isKeyframe with
  | true => exact cutsCapture_of_keyframe (hkeeps.1.sent later p earlier ht) hk
  | false => exact cutsCapture_of_delta (hkeeps.2.2 later p earlier ht) hk

end Run

variable {c : Compressor} {s : PipelineSettings} {attached : List Display} {m : Machine}

/-- Every payload that goes out is described by its own numbers, of a frame captured before, if all captured
frames are well formed and the coder keeps sizes. -/
theorem payload_describes (h : Machine.new s attached = .ok m) (hc : c.KeepsSize) (registry : Registry)
    (moves : List Move)
    (hframes : ∀ x ∈ captures ((Run.start m registry).play c moves).trace, x.2.frame.WellFormed)
    (later : List Event) {earlier : List Event} {p : RegionPayload}
    (ht : ((Run.start m registry).play c moves).trace = later ++ .sent p :: earlier) :
    ∃ d f, (d, f) ∈ captures earlier ∧ p.Describes c f.frame := by
  obtain ⟨d, f, q, hmem, hl, hwhole, hdata⟩ := Run.everySent_cutsCapture h registry moves later p earlier ht
  have hwell : f.frame.WellFormed := by
    refine hframes (d, f) ?_
    rw [ht]
    unfold captures
    rw [List.filterMap_append, List.filterMap_cons]
    exact List.mem_append_right _ hmem
  exact ⟨d, f, hmem, describes_of_encodeRegion hc hwell hl hwhole hdata⟩

/-- A frame goes out whole; of the next one, an area that came with it and reaches beyond the frame. -/
def overhangMoves : List Move :=
  Move.pass (.captured (.tracked (.filled 2 1 .rgb 7) [])) 4 ++ [.receive] ++
    Move.pass (.captured (.tracked (.filled 2 1 .rgb 9) [⟨1, 0, 7, 9⟩])) 3

theorem payload_describes_overhang :
    let r := (Run.start .small .small).play .zstd overhangMoves
    let p : RegionPayload := ⟨1, 0, 1, 1, false, Zstd.encode ⟨#[9, 9, 9]⟩⟩
    Machine.new .lossless [.small] = .ok .small ∧ Compressor.zstd.KeepsSize ∧
      (∀ x ∈ captures r.trace, x.2.frame.WellFormed) ∧ r.trace = [] ++ .sent p :: r.trace.tail ∧
      ∃ d f, (d, f) ∈ captures r.trace.tail ∧ p.Describes .zstd f.frame := by
  have hframes : ∀ x ∈ captures ((Run.start .small .small).play .zstd overhangMoves).trace,
      x.2.frame.WellFormed := by
    intro x hx
    rcases List.mem_cons.mp hx with rfl | hx
    · decide
    · obtain rfl := List.mem_singleton.mp hx
      decide
  exact ⟨Machine.new_small, isLossless_zstd.keepsSize, hframes, rfl,
    payload_describes Machine.new_small isLossless_zstd.keepsSize .small overhangMoves hframes [] rfl⟩

end Screencast
