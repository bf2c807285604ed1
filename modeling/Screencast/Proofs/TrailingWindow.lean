import Screencast.Bandwidth.Controller

/-!
# What the trailing window counts

A pass throws marks away, and only from the old end of a series. Where the times of a series never go
back, all that is expired lies at that end; where the times of the passes never go back, what one of
them threw away is expired for the next as well. So a pass counts all marks ever made that the window
shows at its time, whatever passes came before it.
-/

namespace Screencast

/-! ### Series -/

/-- What is expired stays so. -/
theorem Mark.isExpired_of_le {m : Mark} {p now window : Micros} (h : m.isExpired p window = true) (hle : p ≤ now) :
    m.isExpired now window = true :=
  decide_eq_true (Int.lt_of_lt_of_le (of_decide_eq_true h) (Int.sub_le_sub_right hle m.time))

/-- What is newer than a mark that is not expired is not expired either. -/
theorem Mark.isExpired_of_newer {m n : Mark} {now window : Micros} (h : m.isExpired now window = false)
    (hle : m.time ≤ n.time) : n.isExpired now window = false :=
  decide_eq_false fun hn => of_decide_eq_false h (Int.lt_of_lt_of_le hn (Int.sub_le_sub_left hle now))

namespace Series

/-- The times never go back. -/
def IsOrdered (s : Series) : Prop := s.Pairwise fun newer older => older.time ≤ newer.time

/-- Among marks in the order of their times the expired ones come first. -/
theorem dropWhile_isExpired {l : List Mark} (h : l.Pairwise fun older newer => older.time ≤ newer.time)
    (now window : Micros) :
    l.dropWhile (fun m => m.isExpired now window) = l.filter fun m => !m.isExpired now window := by
  induction l with
  | nil => rfl
  | cons m l ih =>
    obtain ⟨hm, hl⟩ := List.pairwise_cons.mp h
    cases hexp : m.isExpired now window with
    | true => simp [hexp, ih hl]
    | false =>
      have hyoung : ∀ n ∈ l, n.isExpired now window = false := fun n hn => Mark.isExpired_of_newer hexp (hm n hn)
      simpa [hexp] using (List.filter_eq_self.mpr fun n hn => by simp [hyoung n hn]).symm

theorem IsOrdered.prune_eq {s : Series} (h : s.IsOrdered) (now window : Micros) :
    s.prune now window = s.within now window := by
  have hr : s.reverse.Pairwise fun older newer => older.time ≤ newer.time := List.pairwise_reverse.mpr h
  unfold prune within
  rw [dropWhile_isExpired hr, List.filter_reverse, List.reverse_reverse]

/-- A later window shows the same of a series and of what an earlier one shows of it. -/
theorem within_within (s : Series) {p now : Micros} (hle : p ≤ now) (window : Micros) :
    (s.within p window).within now window = s.within now window := by
  unfold within
  rw [List.filter_filter]
  refine List.filter_congr fun m _ => ?_
  cases hp : m.isExpired p window with
  | true => simp [Mark.isExpired_of_le hp hle]
  | false => simp

theorem within_append (s t : Series) (now window : Micros) :
    Series.within (s ++ t) now window = s.within now window ++ t.within now window :=
  List.filter_append s t

end Series

/-! ### Runs -/

/-- What is counted. -/
inductive Tally where
  | bytes
  | frames
  | iterations
  deriving DecidableEq

inductive ControllerMove where
  | bytes (now : Micros) (size : Nat)
  | frame (now : Micros)
  | iteration (now : Micros)
  | process (now : Micros)

namespace ControllerMove

/-- The mark that the move makes for a tally. -/
def mark? (k : Tally) (mv : ControllerMove) : Option Mark :=
  match k, mv with
  | .bytes, .bytes now size => some ⟨now, size⟩
  | .frames, .frame now | .iterations, .iteration now => some ⟨now, 1⟩
  | _, _ => none

/-- The time of the pass. -/
def pass? : ControllerMove → Option Micros
  | process now => some now
  | _ => none

theorem eq_process {mv : ControllerMove} {now : Micros} (h : mv.pass? = some now) : mv = process now := by
  cases mv <;> cases h
  rfl

/-- All marks that the moves make for a tally, the newest first. -/
def marks (k : Tally) (moves : List ControllerMove) : Series := (moves.filterMap (mark? k)).reverse

/-- In each series and among the passes, times never go back. -/
structure IsOrdered (moves : List ControllerMove) : Prop where
  marks : ∀ k, (marks k moves).IsOrdered
  passes : (moves.filterMap pass?).Pairwise (· ≤ ·)

theorem marks_append (k : Tally) (before after : List ControllerMove) :
    marks k (before ++ after) = marks k after ++ marks k before := by
  unfold marks
  rw [List.filterMap_append, List.reverse_append]

theorem marks_concat (k : Tally) (moves : List ControllerMove) (mv : ControllerMove) :
    marks k (moves ++ [mv]) = (mv.mark? k).toList ++ marks k moves := by
  rw [marks_append]
  congr 1
  unfold marks
  rw [List.filterMap_cons]
  cases mv.mark? k <;> rfl

theorem IsOrdered.of_append {before after : List ControllerMove} (h : IsOrdered (before ++ after)) :
    IsOrdered before := by
  refine ⟨fun k => ?_, ?_⟩
  · have hk := h.marks k
    rw [marks_append] at hk
    exact (List.pairwise_append.mp hk).2.1
  · have hp := h.passes
    rw [List.filterMap_append] at hp
    exact (List.pairwise_append.mp hp).1

/-- No pass comes before an earlier one. -/
theorem IsOrdered.pass_le {moves : List ControllerMove} {now : Micros} (h : IsOrdered (moves ++ [process now])) :
    ∀ p ∈ moves.filterMap pass?, p ≤ now := by
  have hp := h.passes
  rw [List.filterMap_append] at hp
  exact fun p hmem => (List.pairwise_append.mp hp).2.2 p hmem now List.mem_cons_self

end ControllerMove

namespace Controller

open ControllerMove (marks)

def series (c : Controller) : Tally → Series
  | .bytes => c.bytesSent
  | .frames => c.framesSent
  | .iterations => c.iterations

def move (c : Controller) : ControllerMove → Controller
  | .bytes now size => c.markBytes now size
  | .frame now => c.markFrame now
  | .iteration now => c.markIteration now
  | .process now => c.process now

def play (c : Controller) (moves : List ControllerMove) : Controller := moves.foldl move c

theorem play_concat (c : Controller) (moves : List ControllerMove) (mv : ControllerMove) :
    c.play (moves ++ [mv]) = (c.play moves).move mv := by
  unfold play
  rw [List.foldl_append]
  rfl

theorem series_process (c : Controller) (now : Micros) (k : Tally) :
    (c.process now).series k = (c.series k).prune now c.settings.window := by
  cases k <;> rfl

/-- A move that is no pass adds its marks. -/
theorem series_move (c : Controller) {mv : ControllerMove} (h : mv.pass? = none) (k : Tally) :
    (c.move mv).series k = (mv.mark? k).toList ++ c.series k := by
  cases mv with
  | process now => cases h
  | bytes now size => cases k <;> rfl
  | frame now => cases k <;> rfl
  | iteration now => cases k <;> rfl

theorem settings_move (c : Controller) (mv : ControllerMove) : (c.move mv).settings = c.settings := by
  cases mv <;> rfl

/-- The settings stay, the series hold marks that were made, in their order, and what a later window shows of
them is what it shows of all marks. -/
structure KeepsMarks (s : BandwidthSettings) (c : Controller) (moves : List ControllerMove) : Prop where
  settings : c.settings = s
  sublist : ∀ k, (c.series k).Sublist (marks k moves)
  within : ∀ k now, (∀ p ∈ moves.filterMap ControllerMove.pass?, p ≤ now) →
    (c.series k).within now s.window = (marks k moves).within now s.window

namespace KeepsMarks

variable {s : BandwidthSettings} {c : Controller} {moves : List ControllerMove}

/-- A pass keeps of a series what its window shows of all marks. -/
theorem series_process (h : c.KeepsMarks s moves) {now : Micros}
    (ho : ControllerMove.IsOrdered (moves ++ [.process now])) (k : Tally) :
    (c.process now).series k = (marks k moves).within now s.window := by
  have hordered : (c.series k).IsOrdered := (ho.of_append.marks k).sublist (h.sublist k)
  rw [Controller.series_process, h.settings, hordered.prune_eq, h.within k now ho.pass_le]

theorem move (h : c.KeepsMarks s moves) {mv : ControllerMove} (ho : ControllerMove.IsOrdered (moves ++ [mv])) :
    (c.move mv).KeepsMarks s (moves ++ [mv]) := by
  cases hpass : mv.pass? with
  | none =>
    have hpasses : (moves ++ [mv]).filterMap ControllerMove.pass? = moves.filterMap ControllerMove.pass? := by
      simp [List.filterMap_append, hpass]
    refine ⟨?_, fun k => ?_, fun k now hnow => ?_⟩
    · rw [settings_move, h.settings]
    · rw [series_move c hpass, ControllerMove.marks_concat]
      exact (List.Sublist.refl _).append (h.sublist k)
    · rw [hpasses] at hnow
      rw [series_move c hpass, ControllerMove.marks_concat, Series.within_append, Series.within_append,
        h.within k now hnow]
  | some now =>
    obtain rfl : mv = .process now := ControllerMove.eq_process hpass
    have hmarks (k : Tally) : marks k (moves ++ [.process now]) = marks k moves := by
      rw [ControllerMove.marks_concat]
      cases k <;> rfl
    refine ⟨?_, fun k => ?_, fun k later hlater => ?_⟩
    · rw [settings_move, h.settings]
    · rw [hmarks]
      exact (h.series_process ho k) ▸ List.filter_sublist
    · have hle : now ≤ later := hlater now (by simp [ControllerMove.pass?])
      rw [hmarks, show c.move (.process now) = c.process now from rfl, h.series_process ho k,
        Series.within_within _ hle]

theorem play (h : c.KeepsMarks s moves) {rest : List ControllerMove} (ho : ControllerMove.IsOrdered (moves ++ rest)) :
    (c.play rest).KeepsMarks s (moves ++ rest) := by
  induction rest generalizing c moves with
  | nil => exact (List.append_nil moves).symm ▸ h
  | cons mv rest ih =>
    rw [List.append_cons] at ho ⊢
    exact ih (h.move ho.of_append) ho

theorem start (s : BandwidthSettings) : (Controller.new s).KeepsMarks s [] :=
  ⟨rfl, fun k => by cases k <;> exact List.Sublist.refl _, fun k now _ => by cases k <;> rfl⟩

end KeepsMarks

/-- A pass takes its rates from the series that it leaves. -/
theorem rates_process (c : Controller) (now : Micros) :
    (c.process now).fps = ratePerSecond ((c.process now).series .frames).count c.settings.window ∧
      (c.process now).ips = ratePerSecond ((c.process now).series .iterations).count c.settings.window ∧
      (c.process now).mbps = seriesThroughput ((c.process now).series .bytes) c.settings.window ∧
      (c.process now).isGateOpen = decide ((c.process now).mbps < c.settings.maxMbps) :=
  ⟨rfl, rfl, rfl, rfl⟩

theorem rates_play {s : BandwidthSettings} {moves : List ControllerMove} {now : Micros}
    (h : ControllerMove.IsOrdered (moves ++ [.process now])) :
    let c := (new s).play (moves ++ [.process now])
    let shown (k : Tally) : Series := (marks k moves).within now s.window
    c.fps = ratePerSecond (shown .frames).count s.window ∧
      c.ips = ratePerSecond (shown .iterations).count s.window ∧
      c.mbps = seriesThroughput (shown .bytes) s.window ∧
      c.isGateOpen = decide (c.mbps < s.maxMbps) := by
  have hkeeps : ((new s).play moves).KeepsMarks s moves := (KeepsMarks.start s).play h.of_append
  have hrates := rates_process ((new s).play moves) now
  rw [hkeeps.series_process h, hkeeps.series_process h, hkeeps.series_process h, hkeeps.settings] at hrates
  rw [play_concat]
  exact hrates

/-- A window that all marks have left shows nothing. -/
theorem within_eq_nil {t : Series} {now window : Micros} (h : ∀ m ∈ t, window < now - m.time) :
    t.within now window = [] :=
  List.filter_eq_nil_iff.mpr fun m hm => by simp [Mark.isExpired, h m hm]

/-- After a pass the rates are those of all marks made so far that the window shows. So another run with the
same marks and the same last pass ends alike, whatever passes it had before, and once all marks are older than the
window the rates are zero. -/
theorem rates_of_marks {s : BandwidthSettings} {moves : List ControllerMove} {now : Micros}
    (h : ControllerMove.IsOrdered (moves ++ [.process now])) :
    let c := (new s).play (moves ++ [.process now])
    let shown (k : Tally) : Series := (marks k moves).within now s.window
    (c.fps = ratePerSecond (shown .frames).count s.window ∧
      c.ips = ratePerSecond (shown .iterations).count s.window ∧
      c.mbps = seriesThroughput (shown .bytes) s.window) ∧
    (∀ others : List ControllerMove, ControllerMove.IsOrdered (others ++ [.process now]) →
      (∀ k, marks k others = marks k moves) →
      let d := (new s).play (others ++ [.process now])
      d.fps = c.fps ∧ d.ips = c.ips ∧ d.mbps = c.mbps ∧ d.isGateOpen = c.isGateOpen) ∧
    ((∀ k, ∀ m ∈ marks k moves, s.window < now - m.time) → c.fps = 0.0 ∧ c.ips = 0.0 ∧ c.mbps = 0.0) := by
  obtain ⟨hfps, hips, hmbps, hgate⟩ := rates_play (s := s) h
  refine ⟨⟨hfps, hips, hmbps⟩, fun others ho hmarks => ?_, fun hold => ?_⟩
  · obtain ⟨hfps', hips', hmbps', hgate'⟩ := rates_play (s := s) ho
    simp only [hmarks] at hfps' hips' hmbps'
    have hsame := hmbps'.trans hmbps.symm
    exact ⟨hfps'.trans hfps.symm, hips'.trans hips.symm, hsame, by rw [hgate', hgate, hsame]⟩
  · simp only [within_eq_nil (hold _)] at hfps hips hmbps
    exact ⟨hfps, hips, hmbps⟩

/-- Marks with a pass between them, and one that is reported late. -/
def lateMoves : List ControllerMove :=
  [.bytes 0 1000, .frame 0, .iteration 0, .process 3500000, .bytes 2000000 500, .frame 2000000, .iteration 3000000]

/-- The same marks without the pass. -/
def unwatchedMoves : List ControllerMove :=
  [.iteration 0, .iteration 3000000, .frame 0, .bytes 0 1000, .frame 2000000, .bytes 2000000 500]

theorem rates_of_marks_late :
    ControllerMove.IsOrdered (lateMoves ++ [.process 4000000]) ∧
    ControllerMove.IsOrdered (unwatchedMoves ++ [.process 4000000]) ∧
    (∀ k, marks k unwatchedMoves = marks k lateMoves) ∧
    let c := (new .standard).play (lateMoves ++ [.process 4000000])
    let d := (new .standard).play (unwatchedMoves ++ [.process 4000000])
    let e := (new .standard).play (lateMoves ++ [.process 9000000])
    c.fps = 1.0 ∧ c.ips = 1.0 ∧ d.fps = c.fps ∧ d.mbps = c.mbps ∧ e.fps = 0.0 ∧ e.mbps = 0.0 := by
  have hlate : ControllerMove.IsOrdered (lateMoves ++ [.process 4000000]) :=
    ⟨fun k => by cases k <;> (unfold Series.IsOrdered; decide), by decide⟩
  have hend : ControllerMove.IsOrdered (lateMoves ++ [.process 9000000]) :=
    ⟨fun k => by cases k <;> (unfold Series.IsOrdered; decide), by decide⟩
  have hunwatched : ControllerMove.IsOrdered (unwatchedMoves ++ [.process 4000000]) :=
    ⟨fun k => by cases k <;> (unfold Series.IsOrdered; decide), by decide⟩
  have hmarks : ∀ k, marks k unwatchedMoves = marks k lateMoves := fun k => by cases k <;> rfl
  obtain ⟨⟨hfps, hips, -⟩, hsame, -⟩ := rates_of_marks (s := .standard) hlate
  obtain ⟨hfps', -, hmbps', -⟩ := hsame unwatchedMoves hunwatched hmarks
  have hone : ∀ k, k ≠ .bytes →
      ((marks k lateMoves).within 4000000 BandwidthSettings.standard.window).count = 1 := fun k => by
    cases k <;> decide
  simp only [hone .frames (by decide)] at hfps
  simp only [hone .iterations (by decide)] at hips
  have hold : ∀ k, ∀ m ∈ marks k lateMoves, BandwidthSettings.standard.window < 9000000 - m.time := fun k => by
    cases k <;> decide
  obtain ⟨-, -, hgone⟩ := rates_of_marks (s := .standard) hend
  exact ⟨hlate, hunwatched, hmarks, hfps, hips, hfps', hmbps', (hgone hold).1, (hgone hold).2.2⟩

end Controller
end Screencast
