import Dinkster.Video.Audio
import Dinkster.Video.Timeline

/-! Audio does not depend on the window size: whatever the windows, each sample is the weighted
sum over the placements heard at it, from the first sample of the timeline to the last. -/
namespace Dinkster.Video

variable {Curve Ref : Type} (media : AudioMedia Ref) (evaluate : Curve → ℚ → ℚ) (rate : Nat)

namespace Placement

variable (p : Placement Curve Ref)

def Covers (n : Nat) : Prop := p.firstSample rate ≤ n ∧ (n : Int) < p.lastSample rate

instance (n : Nat) : Decidable (p.Covers rate n) :=
  inferInstanceAs (Decidable (_ ∧ _))

def sourceSample (n c : Nat) : ℚ :=
  p.source.elim 0 fun ref =>
    media.sample ref rate ((p.sourceStart + (n : ℚ) / rate - p.clipOrigin) * rate) c

def contribution (n c : Nat) : ℚ :=
  if p.Covers rate n then
    ((p.level evaluate ((n : ℚ) / rate)).toOption.getD 0) * p.sourceSample media rate n c
  else 0

def channels : Nat := p.source.elim 0 fun ref => media.channels ref rate

end Placement

def mixed (audio : List (Placement Curve Ref)) (n c : Nat) : ℚ :=
  (audio.map fun p => p.contribution media evaluate rate n c).sum

def frame (audio : List (Placement Curve Ref)) (channels n : Nat) : List ℚ :=
  (List.range channels).map (mixed media evaluate rate audio n)

def Heard (audio : List (Placement Curve Ref)) (n : Nat) : Prop := ∃ p ∈ audio, p.Covers rate n

variable {media evaluate rate} {audio : List (Placement Curve Ref)}

theorem mixed_silent {n : Nat} (silent : ¬ Heard rate audio n) (c : Nat) :
    mixed media evaluate rate audio n c = 0 := by
  apply List.sum_eq_zero
  intro x inside
  obtain ⟨p,member,rfl⟩ := List.mem_map.mp inside
  exact if_neg fun covers => silent ⟨p,member,covers⟩

theorem frame_silent {n : Nat} (silent : ¬ Heard rate audio n) (channels : Nat) :
    frame media evaluate rate audio channels n = List.replicate channels 0 := by
  apply List.eq_replicate_iff.mpr
  simp +contextual [frame,mixed_silent silent]

theorem audioWindow_ok {ref : Ref} {start : ℚ} {count : Nat} {window : Window}
    (done : media.audioWindow ref start count rate = .ok window) :
    window.channels = media.channels ref rate ∧
      ∀ t c, window.at_ t c = media.sample ref rate (start * rate + t) c := by
  unfold AudioMedia.audioWindow at done
  split at done
  · cases done
  · obtain rfl := Except.ok.inj done
    exact ⟨rfl,fun _ _ => rfl⟩

theorem sourceFor_ok {p : Placement Curve Ref} {ref : Ref} (done : p.sourceFor = .ok ref) :
    p.source = some ref := by
  unfold Placement.sourceFor at done
  split at done
  · rename_i found
    rw [found,Except.ok.inj done]
  · cases done

structure LayerOf (media : AudioMedia Ref) (evaluate : Curve → ℚ → ℚ) (rate first count : Nat)
    (p : Placement Curve Ref) (layer : Layer) : Prop where
  heard : ∃ t, t < count ∧ p.Covers rate (first + t)
  channels : layer.window.channels = p.channels media rate
  leveled : ∀ t, t < count → p.Covers rate (first + t) →
    ∃ x, p.level evaluate (((first + t : Nat) : ℚ) / rate) = .ok x
  sound : ∀ t, t < count → ∀ c,
    layer.window.at_ t c * layer.gain t = p.contribution media evaluate rate (first + t) c

theorem layer_spec {p : Placement Curve Ref} {first count allocated after : Nat}
    {result : Option Layer} (positive : 0 < rate)
    (done : p.layer media evaluate rate first count allocated = .ok (result,after)) :
    (result = none → ∀ t, t < count → ¬ p.Covers rate (first + t)) ∧
      ∀ layer, result = some layer → LayerOf media evaluate rate first count p layer := by
  unfold Placement.layer at done
  dsimp only at done
  generalize leftIs : max (first : Int) (p.firstSample rate) = left at done
  generalize rightIs : min ((first : Int) + count) (p.lastSample rate) = right at done
  split at done
  · rename_i empty
    obtain ⟨rfl,_⟩ := Prod.mk.inj (Except.ok.inj done)
    refine ⟨fun _ t inside covers => ?_,by simp⟩
    obtain ⟨low,high⟩ := covers
    omega
  · rename_i nonempty
    split at done
    · cases done
    · obtain ⟨ref,bound,done⟩ := Fallible.bind_ok.mp done
      obtain ⟨samples,sliced,done⟩ := Fallible.bind_ok.mp done
      split at done
      · cases done
      · split at done
        · cases done
        · obtain ⟨levels,leveled,done⟩ := Fallible.bind_ok.mp done
          obtain ⟨rfl,_⟩ := Prod.mk.inj (Except.ok.inj done)
          refine ⟨by simp,?_⟩
          rintro layer same
          obtain rfl := Option.some.inj same
          obtain ⟨offset,leftAt⟩ : ∃ offset : Nat, left = first + offset :=
            ⟨(left - first).toNat,by omega⟩
          obtain ⟨width,rightAt⟩ : ∃ width : Nat, right = left + width :=
            ⟨(right - left).toNat,by omega⟩
          have offsetIs : (left - first).toNat = offset := by omega
          have widthIs : (right - left).toNat = width := by omega
          rw [widthIs] at leveled sliced
          have inside_iff (t : Nat) (bound : t < count) :
              p.Covers rate (first + t) ↔ offset ≤ t ∧ t < offset + width := by
            unfold Placement.Covers
            push_cast
            omega
          have scale : (rate : ℚ) ≠ 0 := by exact_mod_cast positive.ne'
          have source := sourceFor_ok bound
          have window := audioWindow_ok sliced
          have each := List.forall₂_iff_get.mp (Fallible.mapM_ok.mp leveled)
          have leveled (k : Nat) (within : k < width) : ∃ long : k < levels.length,
              p.level evaluate (((first + (offset + k) : Nat) : ℚ) / rate) = .ok levels[k] := by
            have long : k < levels.length := by simpa [← each.1] using within
            have level := each.2 k (by simpa using within) long
            simp only [List.get_eq_getElem,List.getElem_range,leftAt] at level
            refine ⟨long,?_⟩
            rw [← level]
            push_cast
            ring_nf
          refine ⟨⟨offset,by omega,(inside_iff offset (by omega)).mpr (by omega)⟩,?_,?_,?_⟩
          · simp [Placement.channels,source,window.1]
          · intro t bound covers
            have inside := (inside_iff t bound).mp covers
            obtain ⟨k,rfl⟩ := Nat.exists_eq_add_of_le inside.1
            obtain ⟨_,level⟩ := leveled k (by omega)
            exact ⟨_,level⟩
          · intro t bound c
            simp only [offsetIs,widthIs,Bool.and_eq_true,decide_eq_true_eq]
            unfold Placement.contribution
            by_cases inside : offset ≤ t ∧ t < offset + width
            · rw [if_pos inside,if_pos inside,if_pos ((inside_iff t bound).mpr inside)]
              obtain ⟨k,rfl⟩ := Nat.exists_eq_add_of_le inside.1
              obtain ⟨long,level⟩ := leveled k (by omega)
              have position : (p.sourceStart + (left : ℚ) / rate - p.clipOrigin) * rate + k =
                  (p.sourceStart + ((first + (offset + k) : Nat) : ℚ) / rate - p.clipOrigin) *
                    rate := by
                rw [leftAt]
                push_cast
                field_simp
                ring
              rw [Nat.add_sub_cancel_left,window.2,position,List.getD_eq_getElem?_getD,
                List.getElem?_eq_getElem long,level,mul_comm]
              simp [Placement.sourceSample,source,Except.toOption]
            · rw [if_neg inside,if_neg (mt (inside_iff t bound).mp inside)]
              simp
variable {first count : Nat}

theorem layers_spec (positive : 0 < rate) {allocated : Nat} {result : List Layer}
    (done : layers media evaluate rate first count audio allocated = .ok result) :
    (∀ t, t < count → ∀ c, (result.map fun layer => layer.window.at_ t c * layer.gain t).sum =
      mixed media evaluate rate audio (first + t) c) ∧
    (∀ layer ∈ result, ∃ p ∈ audio, LayerOf media evaluate rate first count p layer) ∧
    ∀ p ∈ audio, ∀ t, t < count → p.Covers rate (first + t) →
      ∃ layer ∈ result, LayerOf media evaluate rate first count p layer := by
  induction audio generalizing allocated result with
  | nil =>
    obtain rfl : [] = result := Except.ok.inj done
    simp [mixed]
  | cons p rest ih =>
    obtain ⟨⟨head,after⟩,here,done⟩ := Fallible.bind_ok.mp done
    obtain ⟨others,there,done⟩ := Fallible.bind_ok.mp done
    obtain rfl : head.toList ++ others = result := Except.ok.inj done
    obtain ⟨absent,present⟩ := layer_spec positive here
    obtain ⟨sums,sources,found⟩ := ih there
    cases head with
    | none =>
      have silent := absent rfl
      refine ⟨?_,?_,?_⟩
      · intro t inside c
        have zero : p.contribution media evaluate rate (first + t) c = 0 :=
          if_neg (silent t inside)
        simpa [mixed,zero] using sums t inside c
      · intro layer member
        obtain ⟨q,known,of⟩ := sources layer member
        exact ⟨q,List.mem_cons_of_mem _ known,of⟩
      · intro q member t inside covers
        rcases List.mem_cons.mp member with rfl | member
        · exact absurd covers (silent t inside)
        · exact found q member t inside covers
    | some layer =>
      have of := present layer rfl
      refine ⟨?_,?_,?_⟩
      · intro t inside c
        have tail := sums t inside c
        simp only [mixed] at tail
        simp [mixed,of.sound t inside c,tail]
      · intro other member
        rcases List.mem_cons.mp member with rfl | member
        · exact ⟨p,List.mem_cons_self,of⟩
        · obtain ⟨q,known,of⟩ := sources other member
          exact ⟨q,List.mem_cons_of_mem _ known,of⟩
      · intro q member t inside covers
        rcases List.mem_cons.mp member with rfl | member
        · exact ⟨layer,List.mem_cons_self,of⟩
        · obtain ⟨other,known,of⟩ := found q member t inside covers
          exact ⟨other,List.mem_cons_of_mem _ known,of⟩

/-- The placements heard at the samples have a gain there and share the layout of the mix. -/
def Agree (media : AudioMedia Ref) (evaluate : Curve → ℚ → ℚ) (rate : Nat)
    (audio : List (Placement Curve Ref)) (channels low high : Nat) : Prop :=
  ∀ n, low ≤ n → n < high → ∀ p ∈ audio, p.Covers rate n →
    p.channels media rate = channels ∧ ∃ x, p.level evaluate ((n : ℚ) / rate) = .ok x

theorem silent_window (positive : 0 < rate) {allocated : Nat}
    (done : layers media evaluate rate first count audio allocated = .ok []) :
    ∀ n, first ≤ n → n < first + count → ¬ Heard rate audio n := by
  rintro n low high ⟨p,member,covers⟩
  obtain ⟨t,rfl⟩ := Nat.exists_eq_add_of_le low
  obtain ⟨_,inside,_⟩ := (layers_spec positive done).2.2 p member t (by omega) covers
  cases inside

theorem mixed_window (positive : 0 < rate) {allocated : Nat} {layer : Layer} {rest : List Layer}
    {samples : List (List ℚ)}
    (done : layers media evaluate rate first count audio allocated = .ok (layer :: rest))
    (mix : mixAudio count layer rest = .ok samples) :
    samples = (List.range count).map (fun t =>
      frame media evaluate rate audio layer.window.channels (first + t)) ∧
    Agree media evaluate rate audio layer.window.channels first (first + count) ∧
    ∃ n, first ≤ n ∧ n < first + count ∧ Heard rate audio n := by
  obtain ⟨sums,sources,found⟩ := layers_spec positive done
  unfold mixAudio at mix
  split at mix
  · cases mix
  · rename_i same
    obtain rfl := Except.ok.inj mix
    refine ⟨?_,?_,?_⟩
    · apply List.map_congr_left
      intro t inside
      apply List.map_congr_left
      intro c _
      exact sums t (List.mem_range.mp inside) c
    · intro n low high p member covers
      obtain ⟨t,rfl⟩ := Nat.exists_eq_add_of_le low
      obtain ⟨other,inside,of⟩ := found p member t (by omega) covers
      refine ⟨?_,of.leveled t (by omega) covers⟩
      rw [← of.channels]
      rcases List.mem_cons.mp inside with rfl | inside
      · rfl
      · by_contra differs
        exact same (List.any_eq_true.mpr ⟨other,inside,by simpa using differs⟩)
    · obtain ⟨p,member,of⟩ := sources layer List.mem_cons_self
      obtain ⟨t,inside,covers⟩ := of.heard
      exact ⟨first + t,by omega,by omega,p,member,covers⟩

def Starts (window total : Nat) : Nat → List Nat → Prop
  | pos,[] => total ≤ pos
  | pos,start :: rest => start = pos ∧ pos < total ∧ Starts window total (pos + window) rest

def Contiguous (rate : Nat) : Nat → List Chunk → Prop
  | _,[] => True
  | pos,chunk :: rest => chunk.time = (pos : ℚ) / rate ∧ chunk.samples ≠ [] ∧
      Contiguous rate (pos + chunk.samples.length) rest

def samplesOf (chunks : List Chunk) : List (List ℚ) := chunks.flatMap (·.samples)

theorem starts_range {window : Nat} (positive : 0 < window) (total : Nat) :
    Starts window total 0
      ((List.range ((total + window - 1) / window)).map (· * window)) := by
  have general (n : Nat) : ∀ pos, (total + window - 1 - pos) / window = n →
      Starts window total pos ((List.range n).map fun k => pos + k * window) := by
    induction n with
    | zero =>
      intro pos few
      have small := (Nat.div_eq_zero_iff_lt positive).mp few
      change total ≤ pos
      omega
    | succ n ih =>
      intro pos more
      have large : window ≤ total + window - 1 - pos := by
        by_contra small
        rw [Nat.div_eq_of_lt (by omega)] at more
        cases more
      rw [List.range_succ_eq_map,List.map_cons,List.map_map]
      refine ⟨by simp,by omega,?_⟩
      have next : (total + window - 1 - (pos + window)) / window = n := by
        have less := Nat.sub_mul_div (total + window - 1 - pos) window 1
        rw [Nat.mul_one,more] at less
        have same : total + window - 1 - (pos + window) = total + window - 1 - pos - window := by
          omega
        rw [same,less]
        rfl
      have tail := ih (pos + window) next
      convert tail using 2
      funext k
      simp only [Function.comp_apply,Nat.succ_eq_add_one]
      ring
  have start := general _ 0 rfl
  simpa using start

section Loop

variable {window total pos : Nat} {starts : List Nat} {chunks rest : List Chunk} {channels : Nat}

/-- Samples of the mix, from one sample to another. -/
abbrev frames (media : AudioMedia Ref) (evaluate : Curve → ℚ → ℚ) (rate : Nat)
    (audio : List (Placement Curve Ref)) (channels low count : Nat) : List (List ℚ) :=
  (List.range count).map fun t => frame media evaluate rate audio channels (low + t)

theorem frames_add (low count more : Nat) :
    frames media evaluate rate audio channels low (count + more) =
      frames media evaluate rate audio channels low count ++
        frames media evaluate rate audio channels (low + count) more := by
  unfold frames
  rw [List.range_add,List.map_append,List.map_map]
  congr 1
  apply List.map_congr_left
  intro t _
  simp only [Function.comp_apply,Nat.add_assoc]

theorem frames_silent {low : Nat}
    (silent : ∀ n, low ≤ n → n < low + count → ¬ Heard rate audio n) :
    frames media evaluate rate audio channels low count = silence channels count := by
  apply List.eq_replicate_iff.mpr
  refine ⟨by simp,?_⟩
  intro x inside
  obtain ⟨t,bound,rfl⟩ := List.mem_map.mp inside
  have bound := List.mem_range.mp bound
  exact frame_silent (silent (low + t) (by omega) (by omega)) channels

structure Rendered (media : AudioMedia Ref) (evaluate : Curve → ℚ → ℚ) (rate : Nat)
    (audio : List (Placement Curve Ref)) (channels total pos : Nat) (chunks : List Chunk) :
    Prop where
  contiguous : Contiguous rate pos chunks
  agree : Agree media evaluate rate audio channels pos total
  samples : samplesOf chunks = frames media evaluate rate audio channels pos (total - pos)

theorem rendered_cons {samples : List (List ℚ)} (more : 0 < count) (inside : pos + count ≤ total)
    (agree : Agree media evaluate rate audio channels pos (pos + count))
    (mixed : samples = frames media evaluate rate audio channels pos count)
    (tail : Rendered media evaluate rate audio channels total (pos + count) rest) :
    Rendered media evaluate rate audio channels total pos (⟨(pos : ℚ) / rate,samples⟩ :: rest) := by
  have length : samples.length = count := by simp [mixed]
  refine ⟨⟨rfl,?_,?_⟩,?_,?_⟩
  · exact List.ne_nil_of_length_pos (length ▸ more)
  · rw [length]
    exact tail.contiguous
  · intro n low high
    by_cases near : n < pos + count
    · exact agree n low near
    · exact tail.agree n (by omega) high
  · change samples ++ samplesOf rest = _
    have whole : total - pos = count + (total - (pos + count)) := by omega
    rw [whole,frames_add,mixed,tail.samples]

theorem rendered_nil (ends : total ≤ pos) :
    Rendered media evaluate rate audio channels total pos [] :=
  ⟨trivial,fun _ low high => absurd high (by omega),by simp [samplesOf,Nat.sub_eq_zero_of_le ends]⟩

theorem window_end (inside : pos < total) :
    min (pos + window) total = pos + min window (total - pos) := by
  omega

theorem rest_spec (positive : 0 < rate) (step : 0 < window)
    (run : Starts window total pos starts)
    (done : renderWindows media evaluate rate audio total window starts (some channels) =
      .ok chunks) :
    Rendered media evaluate rate audio channels total (min pos total) chunks := by
  induction starts generalizing pos chunks with
  | nil =>
    obtain rfl : [] = chunks := Except.ok.inj done
    have ends : total ≤ pos := run
    exact rendered_nil (by omega)
  | cons start starts ih =>
    obtain ⟨rfl,inside,later⟩ := run
    rw [Nat.min_eq_left inside.le]
    simp only [renderWindows] at done
    obtain ⟨active,found,done⟩ := Fallible.bind_ok.mp done
    cases active with
    | nil =>
      obtain ⟨tail,there,done⟩ := Fallible.bind_ok.mp done
      obtain rfl := Except.ok.inj done
      have silent := silent_window positive found
      refine rendered_cons (by omega) (by omega) ?_ (frames_silent silent).symm
        (window_end inside ▸ ih later there)
      intro n low high p member covers
      exact absurd ⟨p,member,covers⟩ (silent n low high)
    | cons layer others =>
      dsimp only at done
      split at done
      · cases done
      · rename_i same
        have same := not_not.mp same
        obtain ⟨samples,mix,done⟩ := Fallible.bind_ok.mp done
        obtain ⟨tail,there,done⟩ := Fallible.bind_ok.mp done
        obtain rfl := Except.ok.inj done
        obtain ⟨mixed,agree,_⟩ := mixed_window positive found mix
        rw [← same] at mixed agree
        exact rendered_cons (by omega) (by omega) agree mixed (window_end inside ▸ ih later there)

theorem leading_spec {start : Nat} (step : 0 < window) (before : start ≤ total)
    (silent : ∀ n, n < start → ¬ Heard rate audio n)
    (tail : Rendered media evaluate rate audio channels total start rest)
    (run : Starts window start pos starts) :
    Rendered media evaluate rate audio channels total (min pos start)
      (starts.map (fun (first : Nat) => (⟨(first : ℚ) / rate,
        silence channels (min window (start - first))⟩ : Chunk)) ++ rest) := by
  induction starts generalizing pos with
  | nil =>
    have ends : start ≤ pos := run
    simpa [Nat.min_eq_right ends] using tail
  | cons first starts ih =>
    obtain ⟨rfl,inside,later⟩ := run
    rw [Nat.min_eq_left inside.le]
    have quiet : ∀ n, first ≤ n → n < first + min window (start - first) →
        ¬ Heard rate audio n := fun n _ high => silent n (by omega)
    refine rendered_cons (by omega) (by omega) ?_ (frames_silent quiet).symm
      (window_end inside ▸ ih later)
    intro n low high p member covers
    exact absurd ⟨p,member,covers⟩ (quiet n low high)

theorem search_spec (positive : 0 < rate) (step : 0 < window)
    (silent : ∀ n, n < min pos total → ¬ Heard rate audio n)
    (run : Starts window total pos starts)
    (done : renderWindows media evaluate rate audio total window starts none = .ok chunks) :
    (chunks = [] ∧ ∀ n, n < total → ¬ Heard rate audio n) ∨
      (∃ n, n < total ∧ Heard rate audio n) ∧
        ∃ channels, Rendered media evaluate rate audio channels total 0 chunks := by
  induction starts generalizing pos chunks with
  | nil =>
    obtain rfl : [] = chunks := Except.ok.inj done
    have ends : total ≤ pos := run
    rw [Nat.min_eq_right ends] at silent
    exact .inl ⟨rfl,silent⟩
  | cons start starts ih =>
    obtain ⟨rfl,inside,later⟩ := run
    rw [Nat.min_eq_left inside.le] at silent
    simp only [renderWindows] at done
    obtain ⟨active,found,done⟩ := Fallible.bind_ok.mp done
    cases active with
    | nil =>
      refine ih ?_ later done
      intro n bound
      rw [window_end inside] at bound
      by_cases early : n < start
      · exact silent n early
      · exact silent_window positive found n (by omega) bound
    | cons layer others =>
      right
      obtain ⟨samples,mix,done⟩ := Fallible.bind_ok.mp done
      obtain ⟨tail,there,done⟩ := Fallible.bind_ok.mp done
      obtain rfl := Except.ok.inj done
      obtain ⟨mixed,agree,n,low,high,heard⟩ := mixed_window positive found mix
      refine ⟨⟨n,by omega,heard⟩,layer.window.channels,?_⟩
      have here := rendered_cons (by omega) (by omega) agree mixed
        (window_end inside ▸ rest_spec positive step later there)
      have whole := leading_spec step inside.le silent here (starts_range step start)
      rwa [Nat.zero_min] at whole

end Loop

/-- What a rendering yields: chunks in a row from time zero; no chunk at all where no sample hears
a placement; else each sample of the timeline, as the sum over the placements heard at it. -/
structure Sounds (media : AudioMedia Ref) (evaluate : Curve → ℚ → ℚ) (rate : Nat)
    (audio : List (Placement Curve Ref)) (total : Nat) (chunks : List Chunk) : Prop where
  contiguous : Contiguous rate 0 chunks
  silent : (¬ ∃ n, n < total ∧ Heard rate audio n) → chunks = []
  heard : (∃ n, n < total ∧ Heard rate audio n) → ∃ channels,
    Agree media evaluate rate audio channels 0 total ∧
      samplesOf chunks = (List.range total).map fun n => (List.range channels).map fun c =>
        (audio.map fun p => p.contribution media evaluate rate n c).sum

theorem sounds_of_render {placements : List (Placement Curve Ref)} {total : ℚ} {window : Nat}
    {chunks : List Chunk}
    (done : iterTimelineAudio media evaluate rate placements total window = .ok chunks) :
    Sounds media evaluate rate (audible placements) ⌈total * rate⌉.toNat chunks := by
  unfold iterTimelineAudio at done
  split at done
  · cases done
  · rename_i bounds
    obtain ⟨step,_,positive,_⟩ := not_not.mp bounds
    rcases search_spec positive step (by simp) (starts_range step _) done with
      ⟨rfl,quiet⟩ | ⟨noise,channels,rendered⟩
    · refine ⟨trivial,fun _ => rfl,?_⟩
      rintro ⟨n,inside,heard⟩
      exact absurd heard (quiet n inside)
    · refine ⟨rendered.contiguous,fun quiet => absurd noise quiet,fun _ => ⟨channels,
        rendered.agree,?_⟩⟩
      rw [rendered.samples]
      simp [frames,frame,mixed]

/-- Two renderings that do not fail yield the same samples, whatever their windows: none where no
placement is heard, else all samples of the timeline, each the sum of gain times source sample. -/
theorem audio_windows (placements : List (Placement Curve Ref)) (total : ℚ) (window other : Nat)
    (chunks chunks' : List Chunk)
    (first : iterTimelineAudio media evaluate rate placements total window = .ok chunks)
    (second : iterTimelineAudio media evaluate rate placements total other = .ok chunks') :
    samplesOf chunks = samplesOf chunks' ∧
      Sounds media evaluate rate (audible placements) ⌈total * rate⌉.toNat chunks ∧
      ((∃ n, n < ⌈total * rate⌉.toNat ∧ Heard rate (audible placements) n) →
        (samplesOf chunks).length = ⌈total * rate⌉.toNat) := by
  have sounds := sounds_of_render first
  have sounds' := sounds_of_render second
  refine ⟨?_,sounds,?_⟩
  · by_cases noise : ∃ n, n < ⌈total * rate⌉.toNat ∧ Heard rate (audible placements) n
    · obtain ⟨channels,agree,whole⟩ := sounds.heard noise
      obtain ⟨channels',agree',whole'⟩ := sounds'.heard noise
      obtain ⟨n,inside,p,member,covers⟩ := noise
      have same := (agree n (Nat.zero_le _) inside p member covers).1
      have same' := (agree' n (Nat.zero_le _) inside p member covers).1
      rw [whole,whole',← same,← same']
    · rw [sounds.silent noise,sounds'.silent noise]
  · intro noise
    obtain ⟨channels,_,whole⟩ := sounds.heard noise
    simp [whole]

/-- One channel whose samples are their positions. -/
def ramp : AudioMedia Unit := ⟨fun _ _ => 1,fun _ _ position _ => position,fun _ _ _ _ => none⟩

def flat : Unit → ℚ → ℚ := fun _ _ => 1

def audioTrack : Track Unit := ⟨.audio,.number (1 / 2)⟩

/-- Two seconds of sound after a second of silence. -/
def tone : Placement Unit Unit := ⟨"tracks.children[0].children[1]",some (),1,3,0,1,1,[audioTrack],
  none,none⟩

def pairs : List Chunk := [⟨0,[[0],[0]]⟩,⟨1,[[0],[1 / 2]]⟩,⟨2,[[1],[3 / 2]]⟩]

def triples : List Chunk := [⟨0,[[0],[0],[0]]⟩,⟨3 / 2,[[1 / 2],[1],[3 / 2]]⟩]

theorem tone_windows : samplesOf pairs = samplesOf triples ∧
    Sounds ramp flat 2 (audible [tone]) ⌈(3 : ℚ) * (2 : Nat)⌉.toNat pairs := by
  have byTwo : iterTimelineAudio ramp flat 2 [tone] 3 2 = .ok pairs := by decide +kernel
  have byThree : iterTimelineAudio ramp flat 2 [tone] 3 3 = .ok triples := by decide +kernel
  have whole := audio_windows [tone] 3 2 3 pairs triples byTwo byThree
  exact ⟨whole.1,whole.2.1⟩

def chirp : Document Unit Unit where
  composition := {}
  children := [.track {} audioTrack
    [.gap true (some ⟨0,1 / 8,by norm_num⟩),
      .clip { sourceRange := some ⟨0,1 / 8,by norm_num⟩, source := some "a" }]]
  sources := .ofList [("a",())]
  rate := 8
  positive := by norm_num

/-- Audio is placed and the timeline has a sample, but nothing is yielded. -/
theorem chirp_silent : ¬ ∀ (d obj : Document Unit Unit) (placements : List (Placement Unit Unit))
    (total : ℚ) (window : Nat) (chunks : List Chunk),
    compileTimeline (fun _ => none) d = .ok (obj,placements,total) → audible placements ≠ [] →
    iterTimelineAudio ramp flat 2 placements total window = .ok chunks →
    (samplesOf chunks).length = ⌈total * 2⌉.toNat := by
  intro always
  have short : (match compileTimeline (fun _ => none) chirp with
      | .error _ => false
      | .ok (_,placements,total) => decide ((audible placements).length = 1) &&
          decide (⌈total * 2⌉ = 1) &&
          decide (iterTimelineAudio ramp flat 2 placements total 1 = .ok [])) = true := by
    decide +kernel
  cases compiled : compileTimeline (fun _ => none) chirp with
  | error raised =>
    rw [compiled] at short
    cases short
  | ok result =>
    obtain ⟨obj,placements,total⟩ := result
    rw [compiled] at short
    simp only [Bool.and_eq_true,decide_eq_true_eq] at short
    obtain ⟨⟨placed,sample⟩,rendered⟩ := short
    have filled := always chirp obj placements total 1 [] compiled
      (by rintro none; simp [none] at placed) rendered
    simp [sample,samplesOf] at filled

end Dinkster.Video
