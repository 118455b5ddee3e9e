import Mathlib.Algebra.Order.Floor.Ring
import Mathlib.Data.Rat.Floor
import Dinkster.Lib.Fallible

/-! Where a clip of a timeline stands: its interval of timeline time, how that maps into the
source, and the tracks around it. Times are exact fractions. -/
namespace Dinkster.Video

structure TimelineError where
  code : String
  path : String
  message : String
  deriving DecidableEq

/-- A parameter: a number, a curve over time, or what `scalar` raises on. -/
inductive Scalar (Curve : Type)
  | number (x : ℚ)
  | curve (c : Curve)
  | invalid (error : TimelineError)

variable {Curve Ref : Type}

def Scalar.at (evaluate : Curve → ℚ → ℚ) (time : ℚ) : Scalar Curve → Except TimelineError ℚ
  | number x => .ok x
  | curve c => .ok (evaluate c time)
  | invalid error => .error error

inductive TrackKind
  | video
  | audio
  deriving DecidableEq

structure Track (Curve : Type) where
  kind : TrackKind
  /-- `audio_mix.gain` -/
  gain : Scalar Curve := .number 1

/-- `source` is the declared reference that the clip is bound to. -/
structure Placement (Curve Ref : Type) where
  path : String
  source : Option Ref
  start : ℚ
  stop : ℚ
  sourceStart : ℚ
  speed : ℚ
  clipOrigin : ℚ
  tracks : List (Track Curve)
  fadeIn : Option (ℚ × ℚ) := none
  fadeOut : Option (ℚ × ℚ) := none

namespace Placement

variable (p : Placement Curve Ref)

def sourceTime (time : ℚ) : ℚ := p.sourceStart + (time - p.clipOrigin) * p.speed

def sourceFor : Except TimelineError Ref :=
  match p.source with
  | some ref => .ok ref
  | none => .error ⟨"unbound_source",p.path,"bind a declared asset before rendering"⟩

def fade (interval : Option (ℚ × ℚ)) (incoming : Bool) (time : ℚ) : Except TimelineError ℚ :=
  match interval with
  | none => .ok 1
  | some (a,b) =>
    if b ≤ a then .error ⟨"invalid_transition",p.path,"empty dissolve"⟩
    else
      let progress := min 1 (max 0 ((time - a) / (b - a)))
      .ok (if incoming then progress else 1 - progress)

/-- `_gain` -/
def fades (time : ℚ) : Except TimelineError ℚ := do
  let incoming ← p.fade p.fadeIn true time
  let outgoing ← p.fade p.fadeOut false time
  return incoming * outgoing

end Placement

end Dinkster.Video
