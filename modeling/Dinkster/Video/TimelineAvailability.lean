import Dinkster.Video.TimelineMeaning

/-! When the sources of a timeline are available. The check reads the source time at the rounded
ends of a placement, which are frame times only where the placement holds one. -/
namespace Dinkster.Video

open Fallible

variable {Curve Ref : Type}

def unavailable (path message : String) : Raised :=
  .timeline ⟨"source_range_unavailable",path,message⟩

namespace Placement

variable (videoLength : Ref → Option ℚ) (rate : ℚ) (p : Placement Curve Ref)

def Outside (time : ℚ) : Prop :=
  time < 0 ∨ ∃ length ∈ p.source.bind videoLength, length ≤ time

def SeenAt (frame : Int) : Prop := p.view.Sees (frame / rate)

def Unavailable : Prop :=
  min (firstTime rate p) (lastTime rate p) < 0 ∨
    ∃ length ∈ p.source.bind videoLength, length ≤ max (firstTime rate p) (lastTime rate p)

variable {videoLength : Ref → Option ℚ} {rate : ℚ} {p : Placement Curve Ref}

theorem seenAt_iff (positive : 0 < rate) (frame : Int) :
    p.SeenAt rate frame ↔ ⌈p.start * rate⌉ ≤ frame ∧ frame ≤ ⌈p.stop * rate⌉ - 1 := by
  unfold SeenAt View.Sees view
  rw [le_div_iff₀ positive,div_lt_iff₀ positive,Int.ceil_le,Int.le_sub_one_iff,Int.lt_ceil]

theorem sourceTime_between {a t b : ℚ} (first : a ≤ t) (last : t ≤ b) :
    min (p.sourceTime a) (p.sourceTime b) ≤ p.sourceTime t ∧
      p.sourceTime t ≤ max (p.sourceTime a) (p.sourceTime b) := by
  unfold sourceTime
  rcases le_total 0 p.speed with forward | backward
  · have lower := mul_le_mul_of_nonneg_right (sub_le_sub_right first p.clipOrigin) forward
    have upper := mul_le_mul_of_nonneg_right (sub_le_sub_right last p.clipOrigin) forward
    exact ⟨min_le_of_left_le (by linarith),le_max_of_le_right (by linarith)⟩
  · have upper := mul_le_mul_of_nonpos_right (sub_le_sub_right first p.clipOrigin) backward
    have lower := mul_le_mul_of_nonpos_right (sub_le_sub_right last p.clipOrigin) backward
    exact ⟨min_le_of_right_le (by linarith),le_max_of_le_left (by linarith)⟩

theorem unavailable_of_outside (positive : 0 < rate) {frame : Int} (seen : p.SeenAt rate frame)
    (outside : p.Outside videoLength (p.sourceTime (frame / rate))) :
    p.Unavailable videoLength rate := by
  obtain ⟨first,last⟩ := (seenAt_iff positive frame).mp seen
  have after : ((⌈p.start * rate⌉ : Int) : ℚ) / rate ≤ (frame : ℚ) / rate :=
    div_le_div_of_nonneg_right (Int.cast_le.mpr first) positive.le
  have before : (frame : ℚ) / rate ≤ ((⌈p.stop * rate⌉ - 1 : Int) : ℚ) / rate :=
    div_le_div_of_nonneg_right (Int.cast_le.mpr last) positive.le
  obtain ⟨lower,upper⟩ := p.sourceTime_between after before
  rcases outside with early | ⟨length,known,late⟩
  · exact .inl (lower.trans_lt early)
  · exact .inr ⟨length,known,late.trans upper⟩

theorem outside_of_unavailable (positive : 0 < rate) {frame : Int} (seen : p.SeenAt rate frame)
    (refused : p.Unavailable videoLength rate) :
    ∃ n, p.SeenAt rate n ∧ p.Outside videoLength (p.sourceTime (n / rate)) := by
  obtain ⟨first,last⟩ := (seenAt_iff positive frame).mp seen
  have atFirst : p.SeenAt rate ⌈p.start * rate⌉ :=
    (seenAt_iff positive _).mpr ⟨le_rfl,first.trans last⟩
  have atLast : p.SeenAt rate (⌈p.stop * rate⌉ - 1) :=
    (seenAt_iff positive _).mpr ⟨first.trans last,le_rfl⟩
  rcases refused with early | ⟨length,known,late⟩
  · rcases min_lt_iff.mp early with early | early
    · exact ⟨_,atFirst,.inl early⟩
    · exact ⟨_,atLast,.inl early⟩
  · rcases le_max_iff.mp late with late | late
    · exact ⟨_,atFirst,.inr ⟨length,known,late⟩⟩
    · exact ⟨_,atLast,.inr ⟨length,known,late⟩⟩

theorem check_unavailable :
    (∃ path message, checkPlacement videoLength rate p = .error (unavailable path message)) ↔
      p.Unavailable videoLength rate := by
  unfold checkPlacement Unavailable unavailable
  by_cases early : min (firstTime rate p) (lastTime rate p) < 0
  · rw [refuseIf,if_pos early]
    exact ⟨fun _ => .inl early,fun _ => ⟨p.path,_,rfl⟩⟩
  · rw [refuseIf,if_neg early]
    by_cases late : ∃ length ∈ p.source.bind videoLength,
        length ≤ max (firstTime rate p) (lastTime rate p)
    · have any : ((p.source.bind videoLength).any fun length =>
          decide (length ≤ max (firstTime rate p) (lastTime rate p))) = true := by
        simpa [Option.any_eq_true] using late
      refine ⟨fun _ => .inr late,fun _ => ⟨p.path,"selection exceeds bound media",?_⟩⟩
      rw [refuseIf,if_pos any]
      rfl
    · have none : ¬ ((p.source.bind videoLength).any fun length =>
          decide (length ≤ max (firstTime rate p) (lastTime rate p))) = true := by
        simpa [Option.any_eq_true] using late
      rw [refuseIf,if_neg none]
      constructor
      · rintro ⟨path,message,failed⟩
        change refuseIf _ _ = _ at failed
        unfold refuseIf at failed
        split at failed
        · have codes := (TimelineError.mk.inj (Raised.timeline.inj (Except.error.inj failed))).1
          exact absurd codes (by decide)
        · cases failed
      · rintro (before | after)
        · exact absurd before early
        · exact absurd after late

end Placement

def Other (raised : Raised) : Prop := ∀ path message, raised ≠ unavailable path message

theorem other_timeline {code path message : String} (differs : code ≠ "source_range_unavailable") :
    Other (.timeline ⟨code,path,message⟩) := by
  intro path' message' same
  exact differs (TimelineError.mk.inj (Raised.timeline.inj same)).1

theorem other_valueError {message : String} : Other (.valueError message) := nofun

theorem raise_other {α : Type} {code path message : String}
    (differs : code ≠ "source_range_unavailable") :
    FailsWith Other (raise code path message : Except Raised α) :=
  failsWith_error.mpr (other_timeline differs)

theorem refuse_other {condition : Prop} [Decidable condition] {code path message : String}
    (differs : code ≠ "source_range_unavailable") :
    FailsWith Other (refuseIf condition (.timeline ⟨code,path,message⟩)) :=
  failsWith_refuseIf (other_timeline differs)

theorem clip_duration_other (c : Clip) : FailsWith Other c.duration := by
  unfold Clip.duration
  split
  · exact failsWith_ok
  · exact failsWith_ok
  · exact raise_other (by decide)

mutual

theorem duration_other : (item : Item Curve) → FailsWith Other item.duration
  | .clip c => clip_duration_other c
  | .gap _ (some _) => failsWith_ok
  | .gap _ none => raise_other (by decide)
  | .transition .. => failsWith_ok
  | .stack c children => by
    rw [Item.duration]
    split
    · exact failsWith_ok
    · exact (durations_other children).bind fun _ => failsWith_ok
  | .track c _ children => by
    rw [Item.duration]
    split
    · exact failsWith_ok
    · exact (durations_other children).bind fun _ => failsWith_ok

theorem durations_other : (children : List (Item Curve)) → FailsWith Other (durations children)
  | [] => failsWith_ok
  | child :: rest => by
    rw [durations]
    exact (duration_other child).bind fun _ => (durations_other rest).bind fun _ => failsWith_ok

end

theorem sourceFor_other (sources : Dict String Ref) (c : Clip) (path : String) :
    FailsWith Other (c.sourceFor sources path) := by
  unfold Clip.sourceFor
  split
  · exact failsWith_ok
  · exact raise_other (by decide)

theorem placeClip_other (sources : Dict String Ref) (c : Clip) (site : Site Curve)
    (interval : View) : FailsWith Other (placeClip sources c site interval) := by
  unfold placeClip Clip.speed
  refine (sourceFor_other _ _ _).bind fun _ => FailsWith.bind ?_ fun _ => failsWith_ok
  refine FailsWith.bind (failsWith_forM fun effect => ?_) fun _ => failsWith_ok
  cases effect with
  | other => exact raise_other (by decide)
  | linearTimeWarp => exact failsWith_ok
  | freezeFrame => exact failsWith_ok

theorem placeBeside_other (sources : Dict String Ref) (site : Site Curve) (before after : ℚ)
    (item : Item Curve) : FailsWith Other (placeBeside sources site before after item) := by
  cases item with
  | clip c =>
    rw [placeBeside]
    refine (sourceFor_other _ _ _).bind fun _ => FailsWith.bind (failsWith_refuseIf other_valueError)
      fun _ => (clip_duration_other c).bind fun _ => (placeClip_other _ _ _ _).bind fun _ => failsWith_ok
  | gap => exact raise_other (by decide)
  | transition => exact raise_other (by decide)
  | stack => exact raise_other (by decide)
  | track => exact raise_other (by decide)

theorem enter_other {enabled : Bool} {duration : Except Raised ℚ} {site : Site Curve}
    (known : FailsWith Other duration) : FailsWith Other (enter enabled duration site) := by
  unfold enter
  split
  · exact failsWith_ok
  · exact known.bind fun _ => failsWith_ok

theorem advance_other (place : Place Curve) (child : Item Curve) :
    FailsWith Other (place.advance child) := by
  unfold Place.advance
  split
  · exact (duration_other child).bind fun _ => failsWith_ok
  · exact failsWith_ok

theorem site_other (place : Place Curve) (child : Item Curve) (following : Option (Item Curve)) :
    FailsWith Other (place.site child following) := by
  unfold Place.site Place.fadeOut
  refine FailsWith.bind ?_ fun _ => failsWith_ok
  split
  · exact (duration_other child).bind fun _ => failsWith_ok
  · exact failsWith_ok

mutual

theorem visit_other (sources : Dict String Ref) : (item : Item Curve) → (site : Site Curve) →
    FailsWith Other (visit sources item site)
  | .gap .., site => by
    rw [visit]
    exact failsWith_ok
  | .transition .., site => by
    rw [visit]
    exact failsWith_ok
  | .clip c, site => by
    rw [visit]
    refine (enter_other (clip_duration_other c)).bind fun found => ?_
    cases found with
    | none => exact failsWith_ok
    | some view => exact (placeClip_other _ _ _ _).bind fun _ => failsWith_ok
  | .stack c children, site => by
    rw [visit]
    refine (enter_other (duration_other _)).bind fun found => ?_
    cases found with
    | none => exact failsWith_ok
    | some view => exact FailsWith.bind (refuse_other (by decide)) fun _ => children_other _ _ _
  | .track c t children, site => by
    rw [visit]
    refine (enter_other (duration_other _)).bind fun found => ?_
    cases found with
    | none => exact failsWith_ok
    | some view => exact FailsWith.bind (refuse_other (by decide)) fun _ => children_other _ _ _

theorem children_other (sources : Dict String Ref) : (children : List (Item Curve)) →
    (place : Place Curve) → FailsWith Other (visitChildren sources children place)
  | [], place => by
    rw [visitChildren]
    exact failsWith_ok
  | child :: rest, place => by
    rw [visitChildren]
    split
    · refine FailsWith.bind ?_ fun _ => children_other _ _ _
      exact FailsWith.bind (refuse_other (by decide)) fun _ => refuse_other (by decide)
    · split
      · exact (advance_other _ _).bind fun _ => children_other _ _ _
      · refine (site_other _ _ _).bind fun site => FailsWith.bind ?_ fun _ =>
          (advance_other _ _).bind fun _ => (children_other _ _ _).bind fun _ => failsWith_ok
        split
        · exact placeBeside_other _ _ _ _ _
        · exact visit_other _ _ _

end

theorem trimWindow_other (current start duration : ℚ) (strict : Bool) :
    FailsWith Other (trimWindow current start duration strict) := by
  fun_cases trimWindow current start duration strict with
  | case1 => exact failsWith_error.mpr other_valueError
  | case2 => exact failsWith_error.mpr other_valueError
  | case3 => exact failsWith_ok
  | case4 => exact failsWith_error.mpr other_valueError

mutual

theorem effective_other (videoLength : Ref → Option ℚ) (sources : Dict String Ref) :
    (item : Item Curve) → FailsWith Other (item.effective videoLength sources)
  | .clip c => by
    rw [Item.effective]
    refine FailsWith.bind ?_ fun _ => failsWith_ok
    unfold Clip.effective
    split
    · exact failsWith_ok
    · split
      · exact raise_other (by decide)
      · exact (trimWindow_other _ _ _ _).bind fun _ => failsWith_ok
  | .gap .. => by
    rw [Item.effective]
    exact failsWith_ok
  | .transition .. => by
    rw [Item.effective]
    exact failsWith_ok
  | .stack _ children => by
    rw [Item.effective]
    exact (effectives_other videoLength sources children).bind fun _ => failsWith_ok
  | .track _ _ children => by
    rw [Item.effective]
    exact (effectives_other videoLength sources children).bind fun _ => failsWith_ok

theorem effectives_other (videoLength : Ref → Option ℚ) (sources : Dict String Ref) :
    (children : List (Item Curve)) → FailsWith Other (effectives videoLength sources children)
  | [] => by
    rw [effectives]
    exact failsWith_ok
  | child :: rest => by
    rw [effectives]
    exact (effective_other videoLength sources child).bind fun _ =>
      (effectives_other videoLength sources rest).bind fun _ => failsWith_ok

end

theorem plan_other (videoLength : Ref → Option ℚ) (d : Document Curve Ref) :
    FailsWith Other (plan videoLength d) := by
  unfold plan Document.effective
  refine FailsWith.bind ?_ fun _ => (duration_other _).bind fun _ =>
    (visit_other _ _ _).bind fun _ => failsWith_ok
  exact (effectives_other _ _ _).bind fun _ => failsWith_ok

/-- Compilation is exact: the placements show what the tree shows, and only frames that are
seen make a source unavailable. -/
structure Exact (videoLength : Ref → Option ℚ) (d : Document Curve Ref) : Prop where
  meaning : ∀ obj placements total, compileTimeline videoLength d = .ok (obj,placements,total) →
    d.effective videoLength = .ok obj ∧ total = obj.tracks.length ∧
      ∀ t, showing placements t = obj.tracks.shows obj.sources "tracks" t
  sampled : ∀ path message, compileTimeline videoLength d = .error (unavailable path message) →
    ∃ obj placements total, plan videoLength d = .ok (obj,placements,total) ∧
      ∃ p ∈ placements, ∃ frame : Int, p.SeenAt obj.rate frame ∧
        p.Outside videoLength (p.sourceTime (frame / obj.rate))

/-- When the first placement that the checks refuse is unavailable, an unavailable placement
is seen at some frame. -/
def Refusable (videoLength : Ref → Option ℚ) (rate : ℚ) (placements : List (Placement Curve Ref)) :
    Prop :=
  ∀ passed p rest, placements = passed ++ p :: rest →
    (∀ q ∈ passed, checkPlacement videoLength rate q = .ok ⟨⟩) → p.Unavailable videoLength rate →
    ∃ q ∈ placements, q.Unavailable videoLength rate ∧ ∃ frame, q.SeenAt rate frame

theorem plan_shows {videoLength : Ref → Option ℚ} {d obj : Document Curve Ref}
    {placements : List (Placement Curve Ref)} {total : ℚ}
    (planned : plan videoLength d = .ok (obj,placements,total)) :
    d.effective videoLength = .ok obj ∧ total = obj.tracks.length ∧
      ∀ t, showing placements t = obj.tracks.shows obj.sources "tracks" t := by
  obtain ⟨obj',effective,later⟩ := bind_ok.mp planned
  obtain ⟨total',measured,later⟩ := bind_ok.mp later
  obtain ⟨placements',visited,same⟩ := bind_ok.mp later
  obtain ⟨rfl,rfl,rfl⟩ : obj' = obj ∧ placements' = placements ∧ total' = total := by
    simpa using Except.ok.inj same
  have length := duration_length obj'.tracks measured
  refine ⟨effective,length.symm,fun t => ?_⟩
  rw [visit_shows obj'.sources obj'.tracks visited t,sub_zero]
  split
  · rfl
  · rename_i unseen
    -- the root is seen in its own length only, which is the whole view
    unfold Document.tracks at length ⊢
    rw [Item.shows]
    refine (if_neg ?_).symm
    rintro ⟨_,first,last⟩
    rw [length] at last
    exact unseen ⟨first,last⟩

theorem compile_of_plan {videoLength : Ref → Option ℚ} {d obj : Document Curve Ref}
    {placements : List (Placement Curve Ref)} {total : ℚ}
    (planned : plan videoLength d = .ok (obj,placements,total)) :
    compileTimeline videoLength d =
      (placements.forM (checkPlacement videoLength obj.rate) >>= fun _ =>
        .ok (obj,placements,total)) := by
  unfold compileTimeline
  rw [planned]
  rfl

theorem compile_exact (videoLength : Ref → Option ℚ) (d : Document Curve Ref) :
    Exact videoLength d ↔ ∀ obj placements total,
      plan videoLength d = .ok (obj,placements,total) →
        Refusable videoLength obj.rate placements := by
  constructor
  · intro exactly obj placements total planned passed p rest split before refused
    obtain ⟨path,message,failed⟩ := Placement.check_unavailable.mpr refused
    have compiled : compileTimeline videoLength d = .error (unavailable path message) := by
      rw [compile_of_plan planned,forM_error.mpr ⟨passed,p,rest,split,before,failed⟩]
      rfl
    obtain ⟨obj',placements',total',planned',q,inside,frame,seen,outside⟩ :=
      exactly.sampled path message compiled
    cases planned.symm.trans planned'
    exact ⟨q,inside,Placement.unavailable_of_outside obj.positive seen outside,frame,seen⟩
  · intro refusable
    refine ⟨fun obj placements total compiled => ?_,fun path message compiled => ?_⟩
    · obtain ⟨⟨obj',placements',total'⟩,planned,later⟩ := bind_ok.mp compiled
      obtain ⟨_,_,same⟩ := bind_ok.mp later
      cases same
      exact plan_shows planned
    · cases planned : plan videoLength d with
      | error e =>
        unfold compileTimeline at compiled
        rw [planned] at compiled
        cases compiled
        exact absurd rfl (plan_other videoLength d _ planned path message)
      | ok result =>
        obtain ⟨obj,placements,total⟩ := result
        rw [compile_of_plan planned] at compiled
        cases checked : placements.forM (checkPlacement videoLength obj.rate) with
        | ok u =>
          rw [checked] at compiled
          cases compiled
        | error e =>
          rw [checked] at compiled
          cases compiled
          obtain ⟨passed,p,rest,split,before,failed⟩ := forM_error.mp checked
          have refused := Placement.check_unavailable.mp ⟨path,message,failed⟩
          obtain ⟨q,inside,unavailable,frame,seen⟩ :=
            refusable obj placements total planned passed p rest split before refused
          exact ⟨obj,placements,total,rfl,q,inside,
            Placement.outside_of_unavailable obj.positive seen unavailable⟩

/-- A hundredth of a second of a video after a gap as long, at 24 frames a second. -/
def brief : Document Unit Unit where
  composition := {}
  children := [.track {} ⟨.video,.number 1⟩
    [.gap true (some ⟨0,1 / 100,by norm_num⟩),
      .clip { sourceRange := some ⟨0,1 / 100,by norm_num⟩, source := some "a" }]]
  sources := .ofList [("a",())]
  rate := 24
  positive := by norm_num

def hundredth : Unit → Option ℚ := fun _ => some (1 / 100)

/-- No frame shows the clip, and still its source is unavailable. -/
theorem brief_inexact : ¬ Exact hundredth brief := by
  intro exactly
  have failed : (match compileTimeline hundredth brief with
      | .error raised => decide (raised =
          unavailable "tracks.children[0].children[1]" "missing transition handle")
      | .ok _ => false) = true := by
    decide +kernel
  have unseen : (match plan hundredth brief with
      | .error _ => true
      | .ok (obj,placements,_) => decide (0 < obj.rate) && placements.all fun p =>
          decide (⌈p.stop * obj.rate⌉ - 1 < ⌈p.start * obj.rate⌉)) = true := by
    decide +kernel
  cases compiled : compileTimeline hundredth brief with
  | ok result =>
    rw [compiled] at failed
    cases failed
  | error raised =>
    rw [compiled] at failed
    obtain rfl := of_decide_eq_true failed
    obtain ⟨obj,placements,total,planned,p,inside,frame,seen,_⟩ := exactly.sampled _ _ compiled
    rw [planned] at unseen
    obtain ⟨positive,each⟩ := Bool.and_eq_true_iff.mp unseen
    obtain ⟨first,last⟩ := (Placement.seenAt_iff (of_decide_eq_true positive) frame).mp seen
    exact absurd (of_decide_eq_true (List.all_eq_true.mp each p inside))
      (not_lt.mpr (first.trans last))

end Dinkster.Video
