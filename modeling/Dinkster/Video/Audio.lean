import Dinkster.Video.Placement

/-! Audio of a compiled timeline, window by window. Media windows are slices of one sample
sequence for each source, and mixing is a weighted sum over exact numbers. -/
namespace Dinkster.Video

variable {Curve Ref : Type}

def timelineAudioWindowLimitBytes : Nat := 128 * 1024 * 1024

/-- The samples of the sources, at positions counted in samples of a rate; a position between two
samples may belong to either, as long as whole steps stay whole. A slice may be refused. -/
structure AudioMedia (Ref : Type) where
  channels : Ref → Nat → Nat
  sample : Ref → Nat → ℚ → Nat → ℚ
  refusal : Ref → ℚ → Nat → Nat → Option TimelineError

structure Window where
  channels : Nat
  length : Nat
  at_ : Nat → Nat → ℚ

def AudioMedia.audioWindow (media : AudioMedia Ref) (ref : Ref) (start : ℚ) (count rate : Nat) :
    Except TimelineError Window :=
  match media.refusal ref start count rate with
  | some error => .error error
  | none => .ok ⟨media.channels ref rate,count,fun t => media.sample ref rate (start * rate + t)⟩

structure Layer where
  window : Window
  gain : Nat → ℚ

structure Chunk where
  time : ℚ
  samples : List (List ℚ)
  deriving DecidableEq

section Render

variable (media : AudioMedia Ref) (evaluate : Curve → ℚ → ℚ) (rate : Nat)

namespace Placement

variable (p : Placement Curve Ref)

/-- The fades and the gains of the tracks around the clip. -/
def level (time : ℚ) : Except TimelineError ℚ := do
  p.tracks.foldlM (fun level track => do
    return level * (← track.gain.at evaluate (time - p.clipOrigin))) (← p.fades time)

def firstSample : Int := ⌈p.start * rate⌉

def lastSample : Int := ⌈p.stop * rate⌉

/-- What the placement adds to the window of `count` samples from `first`, and what the window has
allocated after it. -/
def layer (first count allocated : Nat) : Except TimelineError (Option Layer × Nat) := do
  let left := max (first : Int) (p.firstSample rate)
  let right := min ((first : Int) + count) (p.lastSample rate)
  if right ≤ left then return (none,allocated)
  else if p.speed ≠ 1 then
    .error ⟨"unsupported_time_effect",p.path,"audio retime requires a declared resampler"⟩
  else
    let ref ← p.sourceFor
    let samples ← media.audioWindow ref (p.sourceStart + left / rate - p.clipOrigin)
      (right - left).toNat rate
    if samples.length ≠ (right - left).toNat then
      .error ⟨"audio_layout_mismatch",p.path,"expected [C,T] window"⟩
    else
      let allocated := allocated + (samples.channels + 1) * count * 4
      if timelineAudioWindowLimitBytes < allocated then
        .error ⟨"document_limit","$","active audio windows exceed 128 MiB"⟩
      else
        let offset := (left - first).toNat
        let levels ← (List.range (right - left).toNat).mapM fun (k : Nat) =>
          p.level evaluate ((left + k : ℚ) / rate)
        let inside (t : Nat) : Bool := offset ≤ t && t < offset + (right - left).toNat
        return (some {
          window := ⟨samples.channels,count,fun t c =>
            if inside t then samples.at_ (t - offset) c else 0⟩
          gain := fun t => if inside t then levels.getD (t - offset) 0 else 0 },allocated)

end Placement

def layers (first count : Nat) : List (Placement Curve Ref) → Nat →
    Except TimelineError (List Layer)
  | [],_ => .ok []
  | p :: rest,allocated => do
    let (layer,allocated) ← p.layer media evaluate rate first count allocated
    let others ← layers first count rest allocated
    return layer.toList ++ others

/-- `kernels.mix_audio`: the layers share one channel layout and are added up sample by sample. -/
def mixAudio (count : Nat) (first : Layer) (rest : List Layer) :
    Except TimelineError (List (List ℚ)) :=
  if rest.any fun layer => layer.window.channels ≠ first.window.channels then
    .error ⟨"audio_layout_mismatch","$","audio tracks must share a channel layout"⟩
  else .ok ((List.range count).map fun t => (List.range first.window.channels).map fun c =>
    ((first :: rest).map fun layer => layer.window.at_ t c * layer.gain t).sum)

def silence (channels count : Nat) : List (List ℚ) :=
  List.replicate count (List.replicate channels 0)

def leading (channels window first : Nat) : List Chunk :=
  ((List.range ((first + window - 1) / window)).map (· * window)).map fun (start : Nat) =>
    ⟨(start : ℚ) / rate,silence channels (min window (first - start))⟩

def renderWindows (audio : List (Placement Curve Ref)) (total window : Nat) :
    List Nat → Option Nat → Except TimelineError (List Chunk)
  | [],_ => .ok []
  | first :: firsts,channels => do
    let count := min window (total - first)
    let active ← layers media evaluate rate first count audio 0
    match active,channels with
    | [],none => renderWindows audio total window firsts none
    | [],some channels =>
      return ⟨(first : ℚ) / rate,silence channels count⟩ ::
        (← renderWindows audio total window firsts (some channels))
    | layer :: rest,none =>
      let mixed ← mixAudio count layer rest
      return leading rate layer.window.channels window first ++ ⟨(first : ℚ) / rate,mixed⟩ ::
        (← renderWindows audio total window firsts (some layer.window.channels))
    | layer :: rest,some channels =>
      if channels ≠ layer.window.channels then
        .error ⟨"audio_layout_mismatch","$","channel count changes across clips"⟩
      else
        let mixed ← mixAudio count layer rest
        return ⟨(first : ℚ) / rate,mixed⟩ ::
          (← renderWindows audio total window firsts (some channels))

/-- The placements that are heard: the innermost track is an audio track. -/
def audible (placements : List (Placement Curve Ref)) : List (Placement Curve Ref) :=
  placements.filter fun p => p.tracks.getLast?.any fun track => track.kind = .audio

/-- The chunks that a compiled timeline yields until the generator ends. -/
def iterTimelineAudio (placements : List (Placement Curve Ref)) (total : ℚ) (window : Nat) :
    Except TimelineError (List Chunk) :=
  if ¬ (1 ≤ window ∧ window ≤ 65536 ∧ 1 ≤ rate ∧ rate ≤ 384000) then
    .error ⟨"document_limit","$","invalid audio rate/window"⟩
  else
    let samples := ⌈total * rate⌉.toNat
    renderWindows media evaluate rate (audible placements) samples window
      ((List.range ((samples + window - 1) / window)).map (· * window)) none

end Render

end Dinkster.Video
