import Mathlib.Data.List.Forall2
import StatusPanel.Proofs.Screen.RememberedLighting
import StatusPanel.Surface.Recorder

/-!
# Segments of a redraw

The calls that a painter makes, whichever of them are refused. Each part of the screen has its
segment of the trace: the strokes of the part up to the first one that is refused, and one flush.
The segments follow one another in the order of the parts, so what is refused in one of them leaves
the others as they are; which parts there are was settled before the first call.

## Main definitions

* `Trace.Closes`: a segment that draws strokes and closes them
* `Trace.cut`: a trace cut behind every flush
* `Painter.drawings`: the strokes of the parts that an act redraws

## Main results

* `Trace.cut_flatten`: the flushes of a trace tell its segments apart
* `Traced.trace_paint`: a paint is a segment
* `Painter.trace_redrawParts`: the redraw of parts is a segment for each part
* `Painter.perform_closes`: every act of every painter on every surface
-/

namespace StatusPanel

/-- A segment of a trace that draws strokes in order, up to the first one that is refused, and
closes them with one flush. -/
inductive Trace.Closes {ι : Type} : List (Stroke ι) → Trace ι → Prop
  | flush (reply : Reply) : Closes [] [(.flush, reply)]
  | draw (stroke : Stroke ι) {rest : List (Stroke ι)} {segment : Trace ι}
      (h : Closes rest segment) : Closes (stroke :: rest) ((.draw stroke, .ok ()) :: segment)
  | refuse (stroke : Stroke ι) (rest : List (Stroke ι)) (fault : Fault) (reply : Reply) :
      Closes (stroke :: rest) [(.draw stroke, .error fault), (.flush, reply)]

/-- A trace cut behind every flush. -/
def Trace.cut {ι : Type} : Trace ι → List (Trace ι)
  | [] => []
  | (.flush, reply) :: rest => [(.flush, reply)] :: cut rest
  | call :: rest =>
    match cut rest with
    | [] => [[call]]
    | segment :: segments => (call :: segment) :: segments

/-- A segment ends where the first flush is. -/
theorem Trace.Closes.cut_append {ι : Type} {strokes : List (Stroke ι)} {segment : Trace ι}
    (h : Closes strokes segment) (rest : Trace ι) :
    cut (segment ++ rest) = segment :: cut rest := by
  induction h with
  | flush reply => rfl
  | draw stroke h ih =>
    rw [List.cons_append, cut, ih]
    exact nofun
  | refuse stroke rest fault reply => rfl

/-- The flushes of a trace tell its segments apart. -/
theorem Trace.cut_flatten {ι : Type} {parts : List (List (Stroke ι))} {segments : List (Trace ι)}
    (h : List.Forall₂ Closes parts segments) : cut segments.flatten = segments := by
  induction h with
  | nil => rfl
  | cons hfirst hrest ih => rw [List.flatten_cons, hfirst.cut_append, ih]

variable {S ι : Type} [Surface S ι]

/-- A paint is a segment that closes its strokes. -/
theorem Traced.trace_paint (t : Traced S ι) (strokes : List (Stroke ι)) :
    ∃ segment, Trace.Closes strokes segment ∧
      (paint t strokes).1.trace = t.trace ++ segment := by
  -- Induction on the strokes: the first one is refused, or the others are painted after it.
  induction strokes generalizing t with
  | nil => exact ⟨_, .flush _, rfl⟩
  | cons stroke rest ih =>
    rw [paint, drawAll_cons, draw_eq]
    cases hreply : (Surface.draw t.surface stroke).2 with
    | error fault => exact ⟨_, .refuse stroke rest fault _, List.append_assoc ..⟩
    | ok =>
      obtain ⟨segment, hcloses, htrace⟩ :=
        ih ⟨(Surface.draw t.surface stroke).1, t.trace ++ [(.draw stroke, .ok ())]⟩
      exact ⟨_, hcloses.draw stroke, htrace.trans (List.append_assoc ..)⟩

namespace Painter

/-- The redraw of parts is a segment for each part, in order. -/
theorem trace_redrawParts (p : Painter ι) (t : Traced S ι) (status : Status) (parts : List Part) :
    ∃ segments,
      List.Forall₂ Trace.Closes (parts.map (Drawing.part p.gallery p.scale status)) segments ∧
        (p.redrawParts t status parts).2.trace = t.trace ++ segments.flatten := by
  -- Induction on the parts: no redraw changes the pictures or the scale, only what is remembered.
  induction parts generalizing p t with
  | nil => exact ⟨[], .nil, (List.append_nil _).symm⟩
  | cons q parts ih =>
    obtain ⟨segment, hfirst, htrace⟩ := t.trace_paint (Drawing.part p.gallery p.scale status q)
    obtain ⟨segments, hrest, hparts⟩ := ih (p.redraw t status q).1 (p.redraw t status q).2
    rw [gallery_redraw, scale_redraw] at hrest
    refine ⟨segment :: segments, .cons hfirst hrest, ?_⟩
    rw [redrawParts, hparts, redraw_snd, htrace, List.flatten_cons, List.append_assoc]

/-- The strokes of the parts that an act redraws, part by part. -/
def drawings (p : Painter ι) : Act → List (List (Stroke ι))
  | .layers mask => [Drawing.layers p.gallery mask]
  | .defaultLayer mask => [Drawing.defaultLayer p.gallery mask]
  | .locks locks => [Drawing.locks p.gallery locks]
  | .lighting lighting => [Drawing.lightingBars lighting, Drawing.effectIndex lighting]
  | .tick status =>
    Drawing.speed p.scale status.wpm ::
      if p.shown = some status.lighting then []
      else [Drawing.lightingBars status.lighting, Drawing.effectIndex status.lighting]
  | .all status =>
    [Part.background, .defaultLayer, .layers, .locks, .lightingBars, .effectIndex, .speed].map
      (Drawing.part p.gallery p.scale status)

theorem map_part_redrawn (p : Painter ι) (act : Act) :
    (p.redrawn act).2.map (Drawing.part p.gallery p.scale (p.redrawn act).1) = p.drawings act := by
  cases act with
  | tick status =>
    simp only [redrawn, tickParts, drawings]
    split <;> rfl
  | _ => rfl

/-- **What a painter draws and flushes.** Whatever the surface refuses, an act closes the strokes of
each part that it redraws, part after part, with one flush each: a stroke that is refused ends its
part, and neither that nor a refused flush ends the act or changes the calls of another part. The
trace is that of the act itself: without it the surface and the painter end up the same. -/
theorem perform_closes (p : Painter ι) (surface : S) (act : Act) :
    ∃ segments, List.Forall₂ Trace.Closes (p.drawings act) segments ∧
      p.perform (Traced.fresh surface) act =
        ((p.perform surface act).1, ⟨(p.perform surface act).2, segments.flatten⟩) := by
  let fresh : Traced S ι := Traced.fresh surface
  obtain ⟨segments, hcloses, htrace⟩ :=
    p.trace_redrawParts fresh (p.redrawn act).1 (p.redrawn act).2
  rw [map_part_redrawn] at hcloses
  rw [← perform_eq] at htrace
  have hsame : p.perform surface act = (p.perform fresh act).map id Traced.surface := by
    rw [perform_eq, perform_eq, ← Traced.alike.redrawParts]
    rfl
  have htraced : (p.perform fresh act).2.trace = segments.flatten := htrace
  refine ⟨segments, hcloses, ?_⟩
  rw [hsame, ← htraced]
  rfl

/-- A painter without pictures. -/
def bare : Painter Asset where
  gallery := .empty
  scale := 150

/-- A status with a typing speed of half the scale. -/
def halfSpeed : Status := { Status.boot .initial with wpm := 75 }

/-- A recorder that refuses the sixth call and the one after it. -/
def refusesBar : Faulty Recorder where
  surface := {}
  refuses call := call = 5 ∨ call = 6

/-- The calls of a tick on it. -/
def cutShort : Trace Asset :=
  let fresh : Traced (Faulty Recorder) Asset := Traced.fresh refusesBar
  (bare.perform fresh (.tick halfSpeed)).2.trace

/-- The third stroke of the lighting bars is refused, and the flush behind it as well: the bar of
the typing speed before them is whole, and so is the effect index behind them. -/
theorem perform_closes_cut_short :
    ∃ speed bars index : Trace Asset,
      List.Forall₂ Trace.Closes (bare.drawings (.tick halfSpeed)) [speed, bars, index] ∧
        cutShort = speed ++ (bars ++ index) ∧
        speed.map Prod.snd = [.ok (), .ok (), .ok ()] ∧
        bars.map Prod.snd = [.ok (), .ok (), .error .communication, .error .communication] ∧
        index.map Prod.snd = List.replicate 13 (.ok ()) := by
  obtain ⟨segments, hcloses, hperform⟩ := perform_closes bare refusesBar (.tick halfSpeed)
  have htrace : cutShort = segments.flatten := congrArg (fun r => r.2.trace) hperform
  have hreplies : cutShort.cut.map (List.map Prod.snd) =
      [[.ok (), .ok (), .ok ()], [.ok (), .ok (), .error .communication, .error .communication],
        List.replicate 13 (.ok ())] := by
    decide +kernel
  rw [htrace, Trace.cut_flatten hcloses] at hreplies
  have hlength : segments.length = 3 := hcloses.length_eq.symm
  obtain ⟨speed, bars, index, rfl⟩ := List.length_eq_three.1 hlength
  obtain ⟨hspeed, hrest⟩ := List.cons.inj hreplies
  obtain ⟨hbars, hrest⟩ := List.cons.inj hrest
  obtain ⟨hindex, -⟩ := List.cons.inj hrest
  exact ⟨speed, bars, index, hcloses, by simpa using htrace, hspeed, hbars, hindex⟩

end Painter

end StatusPanel
