import Dinkster.Lib.Dict
import Dinkster.Video.Placement

/-! Timeline documents and their compilation into placements. A tree keeps what the compiler
reads of each item: its range, the range of its media, its effects and whether it is enabled. -/
namespace Dinkster.Video

inductive Raised
  | timeline (error : TimelineError)
  | valueError (message : String)
  deriving DecidableEq

/-- A `TimeRange` in seconds. -/
structure Range where
  start : ℚ
  duration : ℚ
  nonneg : 0 ≤ duration

inductive Effect
  | linearTimeWarp (scalar : ℚ)
  | freezeFrame
  | other (name : String)

structure Trim where
  start : ℚ := 0
  duration : ℚ := 0

/-- `media` is the active entry of `media_references` with its available range, and
`mediaReference` the range of the single reference that older clips have. -/
structure Clip where
  enabled : Bool := true
  sourceRange : Option Range := none
  media : Option (Option Range) := none
  mediaReference : Option Range := none
  effects : List Effect := []
  source : Option String := none
  /-- `video_edit` with `strict_duration` -/
  widget : Option (Trim × Bool) := none

/-- What stacks and tracks have in common; `effects` are those of the composition itself. -/
structure Composition where
  enabled : Bool := true
  sourceRange : Option Range := none
  effects : Bool := false

inductive Item (Curve : Type)
  | clip (c : Clip)
  | gap (enabled : Bool) (sourceRange : Option Range)
  | transition (dissolve : Bool) (inOffset outOffset : ℚ)
  | stack (c : Composition) (children : List (Item Curve))
  | track (c : Composition) (t : Track Curve) (children : List (Item Curve))

/-- The root stack with the declared sources and the frame rate. -/
structure Document (Curve Ref : Type) where
  composition : Composition
  children : List (Item Curve)
  sources : Dict String Ref
  rate : ℚ
  positive : 0 < rate

variable {Curve Ref : Type}

def Document.tracks (d : Document Curve Ref) : Item Curve := .stack d.composition d.children

def raise {α : Type} (code path message : String) : Except Raised α :=
  .error (.timeline ⟨code,path,message⟩)

namespace Clip

variable (c : Clip)

/-- `source_origin` -/
def sourceOrigin : ℚ := ((c.media.getD c.mediaReference).map (·.start)).getD 0

def unknownDuration {α : Type} : Except Raised α :=
  raise "unknown_duration" "$" "item needs source_range or available_range"

/-- `item_duration` -/
def duration : Except Raised ℚ :=
  match c.sourceRange,c.media with
  | some range,_ => .ok range.duration
  | none,some (some available) => .ok available.duration
  | none,_ => unknownDuration

/-- `playback_speed` -/
def playbackSpeed : ℚ :=
  c.effects.foldl (fun speed effect => match effect with
    | .freezeFrame => 0
    | .linearTimeWarp scalar => speed * scalar
    | .other _ => speed) 1

def checkEffect (path : String) : Effect → Except Raised Unit
  | .other name => raise "unsupported_effect" path name
  | _ => .ok ⟨⟩

/-- `_speed` -/
def speed (path : String) : Except Raised ℚ := do
  c.effects.forM (checkEffect path)
  return c.playbackSpeed

def sourceFor (sources : Dict String Ref) (path : String) : Except Raised Ref :=
  match c.source.bind sources.get? with
  | some ref => .ok ref
  | none => raise "unbound_source" path "bind a declared asset before rendering"

def sourceStart : ℚ := (c.sourceRange.map fun range => range.start - c.sourceOrigin).getD 0

end Clip

mutual

def Item.duration : Item Curve → Except Raised ℚ
  | .clip c => c.duration
  | .gap _ (some range) => .ok range.duration
  | .gap _ none => Clip.unknownDuration
  | .transition .. => .ok 0
  | .stack c children =>
    match c.sourceRange with
    | some range => .ok range.duration
    | none => return (← durations children).foldl max 0
  | .track c _ children =>
    match c.sourceRange with
    | some range => .ok range.duration
    | none => return (← durations children).sum

def durations : List (Item Curve) → Except Raised (List ℚ)
  | [] => .ok []
  | child :: rest => return (← child.duration) :: (← durations rest)

end

def Item.enabled : Item Curve → Bool
  | .clip c => c.enabled
  | .gap enabled _ => enabled
  | .transition .. => true
  | .stack c _ => c.enabled
  | .track c _ _ => c.enabled

structure View where
  start : ℚ
  stop : ℚ

def View.inter (v : View) (offset duration : ℚ) : View :=
  ⟨max offset v.start,min (offset + duration) v.stop⟩

def Item.asTransition : Item Curve → Option (Bool × ℚ × ℚ)
  | .transition dissolve inOffset outOffset => some (dissolve,inOffset,outOffset)
  | _ => none

def isClip : Option (Item Curve) → Bool
  | some (.clip _) => true
  | _ => false

/-- What surrounds an item: where it stands, what is in view, the tracks, and the fades that
dissolves beside it make. -/
structure Site (Curve : Type) where
  path : String
  offset : ℚ
  view : View
  tracks : List (Track Curve)
  fadeIn : Option (ℚ × ℚ) := none
  fadeOut : Option (ℚ × ℚ) := none

structure Place (Curve : Type) where
  inTrack : Bool
  path : String
  view : View
  tracks : List (Track Curve)
  index : Nat
  previous : Option (Item Curve)
  cursor : ℚ

namespace Place

variable (place : Place Curve)

def childPath : String := place.path ++ ".children[" ++ toString place.index ++ "]"

/-- `cursor += duration(child)`, on a track. -/
def advance (child : Item Curve) : Except Raised ℚ :=
  if place.inTrack then return place.cursor + (← child.duration) else .ok place.cursor

def next (child : Item Curve) (cursor : ℚ) : Place Curve :=
  { place with index := place.index + 1, previous := some child, cursor := cursor }

def beside (neighbour : Option (Item Curve)) : Option (ℚ × ℚ) :=
  if place.inTrack then (neighbour.bind Item.asTransition).map (·.2) else none

def incoming : Option (ℚ × ℚ) := place.beside place.previous

def before : ℚ := (place.incoming.map (·.1)).getD 0

def after (following : Option (Item Curve)) : ℚ := ((place.beside following).map (·.2)).getD 0

def fadeIn : Option (ℚ × ℚ) :=
  place.incoming.map fun (before,tail) => (place.cursor - before,place.cursor + tail)

def fadeOut (child : Item Curve) (following : Option (Item Curve)) :
    Except Raised (Option (ℚ × ℚ)) :=
  match place.beside following with
  | some (head,after) => do
    let cut := place.cursor + (← child.duration)
    return some (cut - head,cut + after)
  | none => .ok none

def site (child : Item Curve) (following : Option (Item Curve)) : Except Raised (Site Curve) := do
  let fadeOut ← place.fadeOut child following
  return ⟨place.childPath,place.cursor,place.view,place.tracks,place.fadeIn,fadeOut⟩

def checkTransition (dissolve : Bool) (following : Option (Item Curve)) :
    Except Raised Unit := do
  Fallible.refuseIf (¬ (place.inTrack ∧ isClip place.previous ∧ isClip following))
    (.timeline ⟨"invalid_transition",place.childPath,"requires adjacent clips"⟩)
  Fallible.refuseIf (dissolve = false)
    (.timeline ⟨"unsupported_transition",place.childPath,"only SMPTE_Dissolve"⟩)

end Place

section Compile

variable (sources : Dict String Ref)

def placeClip (c : Clip) (site : Site Curve) (interval : View) :
    Except Raised (Placement Curve Ref) := do
  let ref ← c.sourceFor sources site.path
  let speed ← c.speed site.path
  return ⟨site.path,some ref,interval.start,interval.stop,c.sourceStart,speed,site.offset,
    site.tracks,site.fadeIn,site.fadeOut⟩

def placeBeside (site : Site Curve) (before after : ℚ) :
    Item Curve → Except Raised (List (Placement Curve Ref))
  | .clip c => do
    let _ ← c.sourceFor sources site.path
    Fallible.refuseIf (c.sourceRange.isNone = true)
      (.valueError "TimeRange must be an object with string keys")
    let duration ← c.duration
    return [← placeClip sources c site ⟨max (site.offset - before) site.view.start,
      min (site.offset + duration + after) site.view.stop⟩]
  | _ => raise "invalid_transition" site.path "transition on non-clip"

def enter (enabled : Bool) (duration : Except Raised ℚ) (site : Site Curve) :
    Except Raised (Option View) :=
  if enabled = false then .ok none
  else do
    let view := site.view.inter site.offset (← duration)
    return if view.stop ≤ view.start then none else some view

/-- The first child of a composition. -/
def Composition.place (c : Composition) (inTrack : Bool) (site : Site Curve) (view : View)
    (tracks : List (Track Curve)) : Place Curve :=
  ⟨inTrack,site.path,view,tracks,0,none,site.offset - (c.sourceRange.map (·.start)).getD 0⟩

def Composition.checkEffects (c : Composition) (site : Site Curve) : Except Raised Unit :=
  Fallible.refuseIf (c.effects = true)
    (.timeline ⟨"unsupported_effect",site.path,"composition time/effects need lowering"⟩)

mutual

def visit : Item Curve → Site Curve → Except Raised (List (Placement Curve Ref))
  | .gap .. => fun _ => .ok []
  | .transition .. => fun _ => .ok []
  | .clip c => fun site => do
    match ← enter c.enabled c.duration site with
    | none => return []
    | some view => return [← placeClip sources c site view]
  | .stack c children => fun site => do
    match ← enter c.enabled (Item.stack c children).duration site with
    | none => return []
    | some view =>
      c.checkEffects site
      visitChildren children (c.place false site view site.tracks)
  | .track c t children => fun site => do
    match ← enter c.enabled (Item.track c t children).duration site with
    | none => return []
    | some view =>
      c.checkEffects site
      visitChildren children (c.place true site view (site.tracks ++ [t]))

def visitChildren : List (Item Curve) → Place Curve →
    Except Raised (List (Placement Curve Ref))
  | [] => fun _ => .ok []
  | child :: rest => fun place =>
    match child.asTransition with
    | some (dissolve,_,_) => do
      place.checkTransition dissolve rest.head?
      visitChildren rest (place.next child place.cursor)
    | none =>
      if child.enabled = false then do
        visitChildren rest (place.next child (← place.advance child))
      else do
        let site ← place.site child rest.head?
        let placed ← (if place.before ≠ 0 ∨ place.after rest.head? ≠ 0 then
            placeBeside sources site place.before (place.after rest.head?) child
          else visit child site : Except Raised (List (Placement Curve Ref)))
        let others ← visitChildren rest (place.next child (← place.advance child))
        return placed ++ others

end

end Compile

/-- `trim_window` of a known duration. -/
def trimWindow (current start duration : ℚ) (strict : Bool) : Except Raised Range :=
  if duration < 0 then .error (.valueError "duration must be nonnegative")
  else
    let start := if start < 0 then max 0 (current + start) else start
    let available := max 0 (current - start)
    if strict && decide (available < duration) then
      .error (.valueError "requested duration exceeds available duration")
    else
      let selected := if duration ≠ 0 then min duration available else available
      if some_ : 0 < selected then .ok ⟨start,selected,some_.le⟩
      else .error (.valueError "video trim contains no frames")

section Effective

variable (videoLength : Ref → Option ℚ) (sources : Dict String Ref)

def Clip.baseDuration (c : Clip) : Option ℚ :=
  match (c.source.bind sources.get?).bind videoLength with
  | some length => some length
  | none => (c.media.bind id).map (·.duration)

/-- The widget's selection becomes the range of the clip. -/
def Clip.effective (c : Clip) : Except Raised Clip :=
  match c.widget with
  | none => .ok c
  | some (trim,strict) => match c.baseDuration videoLength sources with
    | none => raise "unknown_duration" "$" "widget clip requires base media duration"
    | some length => do
      let range ← trimWindow length trim.start trim.duration strict
      return { c with sourceRange := some { range with start := range.start + c.sourceOrigin } }

mutual

def Item.effective : Item Curve → Except Raised (Item Curve)
  | .clip c => return .clip (← c.effective videoLength sources)
  | .gap enabled range => .ok (.gap enabled range)
  | .transition dissolve inOffset outOffset => .ok (.transition dissolve inOffset outOffset)
  | .stack c children => return .stack c (← effectives children)
  | .track c t children => return .track c t (← effectives children)

def effectives : List (Item Curve) → Except Raised (List (Item Curve))
  | [] => .ok []
  | child :: rest => return (← child.effective) :: (← effectives rest)

end

end Effective

/-- `effective_document` -/
def Document.effective (videoLength : Ref → Option ℚ) (d : Document Curve Ref) :
    Except Raised (Document Curve Ref) := do
  return { d with children := ← effectives videoLength d.sources d.children }

section Check

variable (videoLength : Ref → Option ℚ) (rate : ℚ) (p : Placement Curve Ref)

def firstTime : ℚ := p.sourceTime ((⌈p.start * rate⌉ : ℚ) / rate)

def lastTime : ℚ := p.sourceTime (((⌈p.stop * rate⌉ - 1 : Int) : ℚ) / rate)

def checkPlacement : Except Raised Unit := do
  Fallible.refuseIf (min (firstTime rate p) (lastTime rate p) < 0)
    (.timeline ⟨"source_range_unavailable",p.path,"missing transition handle"⟩)
  Fallible.refuseIf
    (((p.source.bind videoLength).any fun length =>
      decide (length ≤ max (firstTime rate p) (lastTime rate p))) = true)
    (.timeline ⟨"source_range_unavailable",p.path,"selection exceeds bound media"⟩)
  Fallible.refuseIf
    ((p.fadeIn.any fun incoming => p.fadeOut.any fun outgoing =>
      decide (outgoing.1 < incoming.2)) = true)
    (.timeline ⟨"invalid_transition",p.path,"overlapping transitions"⟩)

end Check

/-- The placements before their sources are checked. -/
def plan (videoLength : Ref → Option ℚ) (d : Document Curve Ref) :
    Except Raised (Document Curve Ref × List (Placement Curve Ref) × ℚ) := do
  let obj ← d.effective videoLength
  let total ← obj.tracks.duration
  let placements ← visit obj.sources obj.tracks ⟨"tracks",0,⟨0,total⟩,[],none,none⟩
  return (obj,placements,total)

def compileTimeline (videoLength : Ref → Option ℚ) (d : Document Curve Ref) :
    Except Raised (Document Curve Ref × List (Placement Curve Ref) × ℚ) := do
  let (obj,placements,total) ← plan videoLength d
  placements.forM (checkPlacement videoLength obj.rate)
  return (obj,placements,total)

end Dinkster.Video
