import Dinkster.Video.Timeline

/-! What the tree of a timeline shows at each time, and that the placements show the same. An
item is asked in its own time, which a composition hands on from its root to its clips. -/
namespace Dinkster.Video

variable {Curve Ref : Type}

structure Shown (Ref : Type) where
  path : String
  source : Option Ref
  time : ℚ

def Clip.length (c : Clip) : ℚ :=
  ((c.sourceRange.or (c.media.bind id)).map (·.duration)).getD 0

mutual

def Item.length : Item Curve → ℚ
  | .clip c => c.length
  | .gap _ range => (range.map (·.duration)).getD 0
  | .transition .. => 0
  | .stack c children => (c.sourceRange.map (·.duration)).getD ((lengths children).foldl max 0)
  | .track c _ children => (c.sourceRange.map (·.duration)).getD (lengths children).sum

def lengths : List (Item Curve) → List ℚ
  | [] => []
  | child :: rest => child.length :: lengths rest

end

def Item.reach (neighbour : Option (Item Curve)) : ℚ × ℚ :=
  ((neighbour.bind Item.asTransition).map (·.2)).getD (0,0)

def Composition.origin (c : Composition) : ℚ := (c.sourceRange.map (·.start)).getD 0

/-- Beside a dissolve a clip is seen for `before` and `after` as well. -/
def Clip.shows (sources : Dict String Ref) (c : Clip) (path : String) (before after time : ℚ) :
    List (Shown Ref) :=
  if c.enabled = true ∧ -before ≤ time ∧ time < c.length + after then
    [⟨path,c.source.bind sources.get?,c.sourceStart + time * c.playbackSpeed⟩]
  else []

mutual

def Item.shows (sources : Dict String Ref) : Item Curve → String → ℚ → List (Shown Ref)
  | .clip c => fun path time => c.shows sources path 0 0 time
  | .gap .. => fun _ _ => []
  | .transition .. => fun _ _ => []
  | .stack c children => fun path time =>
    if c.enabled = true ∧ 0 ≤ time ∧ time < (Item.stack c children).length then
      stackShows sources children path 0 (time + c.origin)
    else []
  | .track c t children => fun path time =>
    if c.enabled = true ∧ 0 ≤ time ∧ time < (Item.track c t children).length then
      trackShows sources children path 0 none (time + c.origin)
    else []

def stackShows (sources : Dict String Ref) :
    List (Item Curve) → String → Nat → ℚ → List (Shown Ref)
  | [] => fun _ _ _ => []
  | child :: rest => fun path index time =>
    child.shows sources (path ++ ".children[" ++ toString index ++ "]") time ++
      stackShows sources rest path (index + 1) time

def trackShows (sources : Dict String Ref) :
    List (Item Curve) → String → Nat → Option (Item Curve) → ℚ → List (Shown Ref)
  | [] => fun _ _ _ _ => []
  | child :: rest => fun path index previous time =>
    (match child with
      | .clip c => c.shows sources (path ++ ".children[" ++ toString index ++ "]")
          (Item.reach previous).1 (Item.reach rest.head?).2 time
      | other => other.shows sources (path ++ ".children[" ++ toString index ++ "]") time) ++
      trackShows sources rest path (index + 1) (some child) (time - child.length)

end

def View.Sees (v : View) (t : ℚ) : Prop := v.start ≤ t ∧ t < v.stop

instance (v : View) (t : ℚ) : Decidable (v.Sees t) := inferInstanceAs (Decidable (_ ∧ _))

def Placement.view (p : Placement Curve Ref) : View := ⟨p.start,p.stop⟩

def Placement.shown (p : Placement Curve Ref) (t : ℚ) : Shown Ref :=
  ⟨p.path,p.source,p.sourceTime t⟩

def showing (placements : List (Placement Curve Ref)) (t : ℚ) : List (Shown Ref) :=
  (placements.filter fun p => decide (p.view.Sees t)).map (·.shown t)

@[simp] theorem showing_nil (t : ℚ) : showing ([] : List (Placement Curve Ref)) t = [] := by
  simp [showing]

@[simp] theorem showing_append (ps qs : List (Placement Curve Ref)) (t : ℚ) :
    showing (ps ++ qs) t = showing ps t ++ showing qs t := by
  simp [showing]

theorem showing_singleton (p : Placement Curve Ref) (t : ℚ) :
    showing [p] t = if p.view.Sees t then [p.shown t] else [] := by
  by_cases seen : p.view.Sees t
  · simp [showing,seen]
  · simp [showing,seen]

theorem clip_length {c : Clip} {d : ℚ} (known : c.duration = .ok d) : c.length = d := by
  rw [Clip.duration.eq_def] at known
  rw [Clip.length]
  cases ranged : c.sourceRange with
  | some range => simpa [ranged] using known
  | none =>
    rw [ranged] at known
    cases media : c.media with
    | none => simp [media,Clip.unknownDuration,raise] at known
    | some available =>
      cases available with
      | none => simp [media,Clip.unknownDuration,raise] at known
      | some range => simpa [media] using known

mutual

theorem duration_length : (item : Item Curve) → {d : ℚ} → item.duration = .ok d →
    item.length = d
  | .clip c, d, known => clip_length known
  | .gap _ (some range), d, known => by
    rw [Item.length]
    simpa [Item.duration] using known
  | .gap _ none, d, known => by cases known
  | .transition .., d, known => by
    rw [Item.length]
    simpa [Item.duration] using known
  | .stack c children, d, known => by
    rw [Item.length]
    rw [Item.duration] at known
    cases ranged : c.sourceRange with
    | some range =>
      rw [ranged] at known
      simpa using known
    | none =>
      rw [ranged] at known
      obtain ⟨ds,each,same⟩ := Fallible.bind_ok.mp known
      rw [durations_lengths children each]
      simpa using Except.ok.inj same
  | .track c t children, d, known => by
    rw [Item.length]
    rw [Item.duration] at known
    cases ranged : c.sourceRange with
    | some range =>
      rw [ranged] at known
      simpa using known
    | none =>
      rw [ranged] at known
      obtain ⟨ds,each,same⟩ := Fallible.bind_ok.mp known
      rw [durations_lengths children each]
      simpa using Except.ok.inj same

theorem durations_lengths : (children : List (Item Curve)) → {ds : List ℚ} →
    durations children = .ok ds → lengths children = ds
  | [], ds, known => by
    rw [lengths]
    simpa [durations] using known
  | child :: rest, ds, known => by
    rw [durations] at known
    obtain ⟨d,first,later⟩ := Fallible.bind_ok.mp known
    obtain ⟨ds',others,same⟩ := Fallible.bind_ok.mp later
    rw [lengths,duration_length child first,durations_lengths rest others]
    exact Except.ok.inj same

end

section Visit

variable {sources : Dict String Ref}

theorem inter_sees {v : View} {offset d t : ℚ} :
    (v.inter offset d).Sees t ↔ v.Sees t ∧ 0 ≤ t - offset ∧ t - offset < d := by
  unfold View.Sees View.inter
  rw [max_le_iff,lt_min_iff]
  constructor
  · rintro ⟨⟨a,b⟩,c,e⟩
    exact ⟨⟨b,e⟩,by linarith,by linarith⟩
  · rintro ⟨⟨b,e⟩,a,c⟩
    exact ⟨⟨by linarith,b⟩,by linarith,e⟩

theorem enter_sees {enabled : Bool} {duration : Except Raised ℚ} {length : ℚ} {site : Site Curve}
    {found : Option View} (known : ∀ d, duration = .ok d → length = d)
    (entered : enter enabled duration site = .ok found) (t : ℚ) :
    (∃ v ∈ found, v.Sees t) ↔ site.view.Sees t ∧ enabled = true ∧
      0 ≤ t - site.offset ∧ t - site.offset < length := by
  unfold enter at entered
  split at entered
  · rename_i disabled
    obtain rfl := Except.ok.inj entered
    simp [disabled]
  · rename_i unlocked
    obtain ⟨d,measured,same⟩ := Fallible.bind_ok.mp entered
    rw [known d measured]
    have apart : site.view.Sees t ∧ enabled = true ∧ 0 ≤ t - site.offset ∧ t - site.offset < d ↔
        (site.view.inter site.offset d).Sees t := by
      rw [inter_sees]
      simp [unlocked]
    rw [apart]
    obtain rfl := Except.ok.inj same
    split
    · rename_i empty
      constructor
      · simp
      · rintro ⟨first,last⟩
        exact absurd (first.trans_lt last) (not_lt.mpr empty)
    · simp

theorem clipSource_ok {c : Clip} {path : String} {ref : Ref}
    (found : c.sourceFor sources path = .ok ref) : c.source.bind sources.get? = some ref := by
  unfold Clip.sourceFor at found
  split at found
  · rename_i here
    rw [here,Except.ok.inj found]
  · cases found

theorem speed_ok {c : Clip} {path : String} {speed : ℚ} (lowered : c.speed path = .ok speed) :
    speed = c.playbackSpeed := by
  obtain ⟨_,_,same⟩ := Fallible.bind_ok.mp lowered
  exact (Except.ok.inj same).symm

theorem placeClip_shown {c : Clip} {site : Site Curve} {interval : View}
    {p : Placement Curve Ref} (placed : placeClip sources c site interval = .ok p) :
    p.view = interval ∧ ∀ t, p.shown t = ⟨site.path,c.source.bind sources.get?,
      c.sourceStart + (t - site.offset) * c.playbackSpeed⟩ := by
  obtain ⟨ref,bound,later⟩ := Fallible.bind_ok.mp placed
  obtain ⟨speed,lowered,same⟩ := Fallible.bind_ok.mp later
  obtain rfl := Except.ok.inj same
  rw [clipSource_ok bound]
  obtain rfl := speed_ok lowered
  exact ⟨rfl,fun _ => rfl⟩

theorem clip_shows {c : Clip} {site : Site Curve} {interval : View} {p : Placement Curve Ref}
    {before after t : ℚ} (placed : placeClip sources c site interval = .ok p)
    (sees : interval.Sees t ↔ site.view.Sees t ∧ c.enabled = true ∧
      -before ≤ t - site.offset ∧ t - site.offset < c.length + after) :
    showing [p] t =
      if site.view.Sees t then c.shows sources site.path before after (t - site.offset)
      else [] := by
  obtain ⟨same,shown⟩ := placeClip_shown placed
  rw [showing_singleton,same,shown,Clip.shows]
  by_cases inView : site.view.Sees t
  · simp only [sees,inView,true_and,if_true]
  · simp only [sees,inView,false_and,if_false]

theorem placeBeside_shows {c : Clip} {site : Site Curve} {before after : ℚ}
    {ps : List (Placement Curve Ref)} (enabled : c.enabled = true)
    (placed : placeBeside sources site before after (.clip c) = .ok ps) (t : ℚ) :
    showing ps t =
      if site.view.Sees t then c.shows sources site.path before after (t - site.offset)
      else [] := by
  obtain ⟨_,_,later⟩ := Fallible.bind_ok.mp placed
  obtain ⟨_,_,later⟩ := Fallible.bind_ok.mp later
  obtain ⟨d,measured,later⟩ := Fallible.bind_ok.mp later
  obtain ⟨p,here,same⟩ := Fallible.bind_ok.mp later
  obtain rfl := Except.ok.inj same
  apply clip_shows here
  rw [clip_length measured]
  unfold View.Sees
  rw [max_le_iff,lt_min_iff]
  constructor
  · rintro ⟨⟨a,b⟩,e,f⟩
    exact ⟨⟨b,f⟩,enabled,by linarith,by linarith⟩
  · rintro ⟨⟨b,f⟩,_,a,e⟩
    exact ⟨⟨by linarith,b⟩,by linarith,f⟩

theorem disabled_shows {item : Item Curve} (disabled : item.enabled = false) (path : String)
    (time : ℚ) : item.shows sources path time = [] := by
  cases item with
  | clip c => simp_all [Item.enabled,Item.shows,Clip.shows]
  | gap => rw [Item.shows]
  | transition => rw [Item.shows]
  | stack => simp_all [Item.enabled,Item.shows]
  | track => simp_all [Item.enabled,Item.shows]

def Item.showsBeside (sources : Dict String Ref) (previous following : Option (Item Curve))
    (path : String) (time : ℚ) : Item Curve → List (Shown Ref)
  | .clip c => c.shows sources path (Item.reach previous).1 (Item.reach following).2 time
  | other => other.shows sources path time

def Place.shows (sources : Dict String Ref) (place : Place Curve) (children : List (Item Curve))
    (t : ℚ) : List (Shown Ref) :=
  if place.inTrack = true then
    trackShows sources children place.path place.index place.previous (t - place.cursor)
  else stackShows sources children place.path place.index (t - place.cursor)

def Place.childShows (sources : Dict String Ref) (place : Place Curve) (child : Item Curve)
    (following : Option (Item Curve)) (t : ℚ) : List (Shown Ref) :=
  if place.inTrack = true then
    child.showsBeside sources place.previous following place.childPath (t - place.cursor)
  else child.shows sources place.childPath (t - place.cursor)

theorem shows_cons (place : Place Curve) {child : Item Curve} {rest : List (Item Curve)}
    {cursor : ℚ}
    (moved : cursor = if place.inTrack = true then place.cursor + child.length else place.cursor)
    (t : ℚ) : place.shows sources (child :: rest) t =
      place.childShows sources child rest.head? t ++
        (place.next child cursor).shows sources rest t := by
  unfold Place.shows Place.childShows
  rw [moved]
  by_cases inTrack : place.inTrack = true
  · simp only [inTrack,if_true,Place.next]
    rw [trackShows,sub_add_eq_sub_sub]
    cases child <;> rfl
  · simp only [inTrack,Place.next]
    rw [stackShows]
    rfl

theorem advance_moves {place : Place Curve} {child : Item Curve} {cursor : ℚ}
    (moved : place.advance child = .ok cursor) :
    cursor = if place.inTrack = true then place.cursor + child.length else place.cursor := by
  unfold Place.advance at moved
  split at moved
  · rename_i inTrack
    obtain ⟨d,measured,same⟩ := Fallible.bind_ok.mp moved
    rw [duration_length child measured]
    simpa [inTrack] using (Except.ok.inj same).symm
  · rename_i inStack
    simpa [inStack] using (Except.ok.inj moved).symm

theorem site_ok {place : Place Curve} {child : Item Curve} {following : Option (Item Curve)}
    {site : Site Curve} (stands : place.site child following = .ok site) :
    site.path = place.childPath ∧ site.offset = place.cursor ∧ site.view = place.view := by
  obtain ⟨_,_,same⟩ := Fallible.bind_ok.mp stands
  obtain rfl := Except.ok.inj same
  exact ⟨rfl,rfl,rfl⟩

theorem before_reach {place : Place Curve} (inTrack : place.inTrack = true) :
    place.before = (Item.reach place.previous).1 := by
  unfold Place.before Place.incoming Place.beside Item.reach
  rw [if_pos inTrack]
  cases (place.previous.bind Item.asTransition).map (·.2) <;> rfl

theorem after_reach {place : Place Curve} {following : Option (Item Curve)}
    (inTrack : place.inTrack = true) : place.after following = (Item.reach following).2 := by
  unfold Place.after Place.beside Item.reach
  rw [if_pos inTrack]
  cases (following.bind Item.asTransition).map (·.2) <;> rfl

theorem apart_of_inStack {place : Place Curve} {following : Option (Item Curve)}
    (inStack : place.inTrack = false) : place.before = 0 ∧ place.after following = 0 := by
  unfold Place.before Place.after Place.incoming Place.beside
  simp [inStack]

theorem childShows_alone {place : Place Curve} {child : Item Curve}
    {following : Option (Item Curve)} (before : place.before = 0)
    (after : place.after following = 0) (t : ℚ) :
    place.childShows sources child following t =
      child.shows sources place.childPath (t - place.cursor) := by
  unfold Place.childShows
  split
  · rename_i inTrack
    rw [before_reach inTrack] at before
    rw [after_reach inTrack] at after
    cases child with
    | clip c => rw [Item.showsBeside,before,after,Item.shows]
    | gap => rfl
    | transition => rfl
    | stack => rfl
    | track => rfl
  · rfl

theorem childShows_disabled {place : Place Curve} {child : Item Curve}
    {following : Option (Item Curve)} (disabled : child.enabled = false) (t : ℚ) :
    place.childShows sources child following t = [] := by
  unfold Place.childShows
  split
  · cases child with
    | clip c =>
      rw [Item.enabled] at disabled
      simp [Item.showsBeside,Clip.shows,disabled]
    | gap => simp [Item.showsBeside,Item.shows]
    | transition => simp [Item.showsBeside,Item.shows]
    | stack => simp [Item.showsBeside,disabled_shows disabled]
    | track => simp [Item.showsBeside,disabled_shows disabled]
  · exact disabled_shows disabled ..

theorem transition_shows (sources : Dict String Ref) (place : Place Curve) {child : Item Curve}
    {facts : Bool × ℚ × ℚ} (here : child.asTransition = some facts) (following : Option (Item Curve)) (t : ℚ) :
    child.length = 0 ∧ place.childShows sources child following t = [] := by
  cases child with
  | transition =>
    refine ⟨by rw [Item.length],?_⟩
    unfold Place.childShows
    split
    · simp [Item.showsBeside,Item.shows]
    · rw [Item.shows]
  | clip => cases here
  | gap => cases here
  | stack => cases here
  | track => cases here

theorem composition_place (c : Composition) (inTrack : Bool) (site : Site Curve) (view : View)
    (tracks : List (Track Curve)) (children : List (Item Curve)) (t : ℚ) :
    (c.place inTrack site view tracks).shows sources children t =
      if inTrack = true then trackShows sources children site.path 0 none (t - site.offset + c.origin)
      else stackShows sources children site.path 0 (t - site.offset + c.origin) := by
  have moved : t - (site.offset - c.origin) = t - site.offset + c.origin := by ring
  rw [← moved]
  rfl

theorem child_shows {place : Place Curve} {child : Item Curve} {following : Option (Item Curve)}
    {site : Site Curve} {ps : List (Placement Curve Ref)} (enabled : child.enabled = true)
    (stands : place.site child following = .ok site)
    (alone : visit sources child site = .ok ps → ∀ t, showing ps t =
      if site.view.Sees t then child.shows sources site.path (t - site.offset) else [])
    (placed : (if place.before ≠ 0 ∨ place.after following ≠ 0 then
        placeBeside sources site place.before (place.after following) child
      else visit sources child site) = .ok ps) (t : ℚ) :
    showing ps t =
      if place.view.Sees t then place.childShows sources child following t else [] := by
  obtain ⟨path,offset,view⟩ := site_ok stands
  split at placed
  · rename_i reached
    have inTrack : place.inTrack = true := by
      by_contra inStack
      obtain ⟨before,after⟩ := @apart_of_inStack _ place following (by simpa using inStack)
      exact reached.elim (· before) (· after)
    cases child with
    | clip c =>
      rw [placeBeside_shows enabled placed,path,offset,view,Place.childShows,if_pos inTrack,
        Item.showsBeside,before_reach inTrack,after_reach inTrack]
    | gap => cases placed
    | transition => cases placed
    | stack => cases placed
    | track => cases placed
  · rename_i clear
    push Not at clear
    rw [alone placed,path,offset,view,childShows_alone clear.1 clear.2]

theorem composition_shows {enabled : Bool} {duration : Except Raised ℚ} {length : ℚ}
    {site : Site Curve} {found : Option View} {ps : List (Placement Curve Ref)}
    {i : ℚ → List (Shown Ref)} (known : ∀ d, duration = .ok d → length = d)
    (entered : enter enabled duration site = .ok found)
    (absent : found = none → ps = [])
    (shown : ∀ v, found = some v → ∀ t, showing ps t = if v.Sees t then i t else []) (t : ℚ) :
    showing ps t = if site.view.Sees t then
        if enabled = true ∧ 0 ≤ t - site.offset ∧ t - site.offset < length then i t else []
      else [] := by
  have sees := enter_sees known entered t
  rw [← ite_and]
  simp only [← sees]
  cases found with
  | none => simp [absent rfl]
  | some v => simp [shown v rfl]

end Visit

mutual

theorem visit_shows (sources : Dict String Ref) : (item : Item Curve) → {site : Site Curve} →
    {ps : List (Placement Curve Ref)} → visit sources item site = .ok ps → ∀ t, showing ps t =
      if site.view.Sees t then item.shows sources site.path (t - site.offset) else []
  | .gap .., site, ps, visited, t => by
    rw [visit] at visited
    obtain rfl := Except.ok.inj visited
    simp [Item.shows]
  | .transition .., site, ps, visited, t => by
    rw [visit] at visited
    obtain rfl := Except.ok.inj visited
    simp [Item.shows]
  | .clip c, site, ps, visited, t => by
    rw [visit] at visited
    obtain ⟨found,entered,later⟩ := Fallible.bind_ok.mp visited
    have sees := enter_sees (fun d => clip_length) entered t
    rw [Item.shows]
    cases found with
    | none =>
      obtain rfl := Except.ok.inj later
      have unseen : ¬ (site.view.Sees t ∧ c.enabled = true ∧ 0 ≤ t - site.offset ∧
          t - site.offset < c.length) := fun seen => by simpa using sees.mpr seen
      unfold Clip.shows
      rw [neg_zero,add_zero,← ite_and,if_neg unseen]
      exact showing_nil t
    | some view =>
      obtain ⟨p,placed,same⟩ := Fallible.bind_ok.mp later
      obtain rfl := Except.ok.inj same
      apply clip_shows placed
      simpa using sees
  | .stack c children, site, ps, visited, t => by
    rw [visit] at visited
    obtain ⟨found,entered,later⟩ := Fallible.bind_ok.mp visited
    rw [Item.shows]
    apply composition_shows (fun d => duration_length _) entered
      (i := fun t => stackShows sources children site.path 0 (t - site.offset + c.origin))
    · rintro rfl
      exact (Except.ok.inj later).symm
    · rintro view rfl t
      obtain ⟨_,_,visited⟩ := Fallible.bind_ok.mp later
      rw [children_show sources children visited t,composition_place]
      rfl
  | .track c track children, site, ps, visited, t => by
    rw [visit] at visited
    obtain ⟨found,entered,later⟩ := Fallible.bind_ok.mp visited
    rw [Item.shows]
    apply composition_shows (fun d => duration_length _) entered
      (i := fun t => trackShows sources children site.path 0 none (t - site.offset + c.origin))
    · rintro rfl
      exact (Except.ok.inj later).symm
    · rintro view rfl t
      obtain ⟨_,_,visited⟩ := Fallible.bind_ok.mp later
      rw [children_show sources children visited t,composition_place]
      rfl

theorem children_show (sources : Dict String Ref) : (children : List (Item Curve)) →
    {place : Place Curve} → {ps : List (Placement Curve Ref)} →
    visitChildren sources children place = .ok ps → ∀ t, showing ps t =
      if place.view.Sees t then place.shows sources children t else []
  | [], place, ps, visited, t => by
    rw [visitChildren] at visited
    obtain rfl := Except.ok.inj visited
    simp [Place.shows,trackShows,stackShows]
  | child :: rest, place, ps, visited, t => by
    rw [visitChildren] at visited
    split at visited
    · rename_i dissolve inOffset outOffset here
      obtain ⟨_,_,others⟩ := Fallible.bind_ok.mp visited
      obtain ⟨still,nothing⟩ := transition_shows sources place here rest.head? t
      have moved : place.cursor = if place.inTrack = true then place.cursor + child.length
          else place.cursor := by simp [still]
      rw [children_show sources rest others t,shows_cons place moved,nothing,List.nil_append]
      rfl
    · split at visited
      · rename_i disabled
        obtain ⟨cursor,moved,others⟩ := Fallible.bind_ok.mp visited
        rw [children_show sources rest others t,shows_cons place (advance_moves moved),
          childShows_disabled disabled,List.nil_append]
        rfl
      · rename_i unlocked
        obtain ⟨site,stands,visited⟩ := Fallible.bind_ok.mp visited
        obtain ⟨placed,here,visited⟩ := Fallible.bind_ok.mp visited
        obtain ⟨cursor,moved,visited⟩ := Fallible.bind_ok.mp visited
        obtain ⟨others,beyond,same⟩ := Fallible.bind_ok.mp visited
        obtain rfl := Except.ok.inj same
        rw [showing_append,shows_cons place (advance_moves moved),
          child_shows (by simpa using unlocked) stands (visit_shows sources child) here,
          children_show sources rest beyond t]
        by_cases seen : place.view.Sees t
        · simp [seen,Place.next]
        · simp [seen,Place.next]

end

end Dinkster.Video
