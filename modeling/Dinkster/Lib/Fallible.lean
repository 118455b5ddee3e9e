import Mathlib.Data.List.Forall2

/-! Fallible computations: taking a successful bind or a successful traversal apart. -/
namespace Fallible

universe u v
variable {ε : Type u} {α β : Type v}

theorem bind_ok {x : Except ε α} {k : α → Except ε β} {b : β} :
    (x >>= k) = .ok b ↔ ∃ a, x = .ok a ∧ k a = .ok b := by
  cases x with
  | error e => exact ⟨nofun,nofun⟩
  | ok a =>
    constructor
    · intro done
      exact ⟨a,rfl,done⟩
    · rintro ⟨a',same,done⟩
      cases same
      exact done

theorem map_ok {x : Except ε α} {f : α → β} {b : β} :
    x.map f = .ok b ↔ ∃ a, x = .ok a ∧ f a = b := by
  cases x with
  | error e => simp [Except.map]
  | ok a => simp [Except.map]

theorem mapError_ok {ε' : Type*} {x : Except ε α} {f : ε → ε'} {a : α} :
    x.mapError f = .ok a ↔ x = .ok a := by
  cases x with
  | error e => simp [Except.mapError]
  | ok a => simp [Except.mapError]

theorem foldlM_keeps {f : β → α → Except ε β} {xs : List α} {P : β → Prop}
    (step : ∀ a ∈ xs, ∀ b b', P b → f b a = .ok b' → P b') {b b' : β} (start : P b)
    (done : xs.foldlM f b = .ok b') : P b' := by
  induction xs generalizing b with
  | nil =>
    cases done
    exact start
  | cons a xs ih =>
    rw [List.foldlM_cons] at done
    obtain ⟨next,here,rest⟩ := bind_ok.mp done
    exact ih (fun a inside => step a (List.mem_cons_of_mem _ inside))
      (step a List.mem_cons_self b next start here) rest

theorem foldlM_each {f : β → α → Except ε β} {xs : List α} {b b' : β}
    (done : xs.foldlM f b = .ok b') : ∀ a ∈ xs, ∃ c c', f c a = .ok c' := by
  induction xs generalizing b with
  | nil => exact nofun
  | cons a xs ih =>
    rw [List.foldlM_cons] at done
    obtain ⟨next,here,rest⟩ := bind_ok.mp done
    exact List.forall_mem_cons.mpr ⟨⟨b,next,here⟩,ih rest⟩

theorem forM_ok {f : α → Except ε PUnit} {xs : List α} {u : PUnit} (done : xs.forM f = .ok u) :
    ∀ x ∈ xs, f x = .ok ⟨⟩ := by
  induction xs with
  | nil => exact nofun
  | cons x xs ih =>
    obtain ⟨⟨⟩,head,rest⟩ := bind_ok.mp done
    exact List.forall_mem_cons.mpr ⟨head,ih rest⟩

theorem forM_all {f : α → Except ε PUnit} {xs : List α} (each : ∀ x ∈ xs, f x = .ok ⟨⟩) :
    xs.forM f = .ok ⟨⟩ := by
  induction xs with
  | nil => rfl
  | cons x xs ih =>
    obtain ⟨head,rest⟩ := List.forall_mem_cons.mp each
    exact bind_ok.mpr ⟨⟨⟩,head,ih rest⟩

theorem forM_error {f : α → Except ε PUnit} {xs : List α} {e : ε} : xs.forM f = .error e ↔
    ∃ passed x rest, xs = passed ++ x :: rest ∧ (∀ y ∈ passed, f y = .ok ⟨⟩) ∧
      f x = .error e := by
  induction xs with
  | nil =>
    constructor
    · exact nofun
    · rintro ⟨passed,x,rest,split,_⟩
      simp at split
  | cons x xs ih =>
    change (f x >>= fun _ => xs.forM f) = .error e ↔ _
    cases head : f x with
    | error e' =>
      constructor
      · intro failed
        cases failed
        exact ⟨[],x,xs,rfl,nofun,head⟩
      · rintro ⟨passed,y,rest,split,before,failed⟩
        rcases List.cons_eq_append_iff.mp split with ⟨_,same⟩ | ⟨later,rfl,_⟩
        · cases same
          exact head.symm.trans failed
        · cases head.symm.trans (before x List.mem_cons_self)
    | ok u =>
      refine Iff.trans ih ?_
      constructor
      · rintro ⟨passed,y,rest,rfl,before,failed⟩
        exact ⟨x :: passed,y,rest,rfl,List.forall_mem_cons.mpr ⟨head,before⟩,failed⟩
      · rintro ⟨passed,y,rest,split,before,failed⟩
        rcases List.cons_eq_append_iff.mp split with ⟨_,same⟩ | ⟨later,rfl,same⟩
        · cases same
          cases head.symm.trans failed
        · exact ⟨later,y,rest,same,(List.forall_mem_cons.mp before).2,failed⟩

/-- `if condition: raise error` -/
def refuseIf (condition : Prop) [Decidable condition] (error : ε) : Except ε PUnit :=
  if condition then .error error else .ok ⟨⟩

theorem refuseIf_ok {condition : Prop} [Decidable condition] {error : ε} {u : PUnit} :
    refuseIf condition error = .ok u ↔ ¬ condition := by
  unfold refuseIf
  split
  · rename_i holds
    exact ⟨nofun,fun refused => absurd holds refused⟩
  · rename_i fails
    exact ⟨fun _ => fails,fun _ => rfl⟩

theorem refuse_then {condition : Prop} [Decidable condition] {error : ε} {x : Except ε β} {b : β} :
    (refuseIf condition error >>= fun _ => x) = .ok b ↔ ¬ condition ∧ x = .ok b := by
  rw [bind_ok]
  constructor
  · rintro ⟨u,allowed,done⟩
    exact ⟨refuseIf_ok.mp allowed,done⟩
  · rintro ⟨allowed,done⟩
    exact ⟨⟨⟩,refuseIf_ok.mpr allowed,done⟩

def FailsWith (P : ε → Prop) (x : Except ε α) : Prop := ∀ e, x = .error e → P e

section FailsWith

variable {P : ε → Prop}

@[simp] theorem failsWith_ok {a : α} : FailsWith P (.ok a : Except ε α) := nofun

@[simp] theorem failsWith_error {e : ε} : FailsWith P (.error e : Except ε α) ↔ P e := by
  simp [FailsWith]

theorem FailsWith.bind {x : Except ε α} {k : α → Except ε β} (first : FailsWith P x)
    (later : ∀ a, FailsWith P (k a)) : FailsWith P (x >>= k) := by
  cases x with
  | error e =>
    intro e' failed
    cases failed
    exact first e rfl
  | ok a => exact later a

theorem failsWith_refuseIf {condition : Prop} [Decidable condition] {e : ε} (known : P e) :
    FailsWith P (refuseIf condition e) := by
  unfold refuseIf
  split
  · exact failsWith_error.mpr known
  · exact failsWith_ok

theorem failsWith_forM {f : α → Except ε PUnit} {xs : List α} (each : ∀ x, FailsWith P (f x)) :
    FailsWith P (xs.forM f) := by
  induction xs with
  | nil => exact failsWith_ok
  | cons x xs ih => exact (each x).bind fun _ => ih

end FailsWith

theorem mapM_ok {f : α → Except ε β} {xs : List α} {ys : List β} :
    xs.mapM f = .ok ys ↔ List.Forall₂ (fun x y => f x = .ok y) xs ys := by
  induction xs generalizing ys with
  | nil =>
    rw [List.mapM_nil,List.forall₂_nil_left_iff]
    simp [pure,Except.pure,eq_comm]
  | cons x xs ih =>
    rw [List.mapM_cons,bind_ok]
    constructor
    · rintro ⟨y,head,rest⟩
      obtain ⟨tail,mapped,same⟩ := bind_ok.mp rest
      obtain rfl := Except.ok.inj same
      exact .cons head (ih.mp mapped)
    · intro pairs
      cases pairs with
      | cons head tail => exact ⟨_,head,bind_ok.mpr ⟨_,ih.mpr tail,rfl⟩⟩

theorem mapM_image {f : α → Except ε β} {xs : List α} {ys : List β} (done : xs.mapM f = .ok ys) :
    ∀ y ∈ ys, ∃ x ∈ xs, f x = .ok y := by
  have pairs := mapM_ok.mp done
  clear done
  induction pairs with
  | nil => exact nofun
  | cons here _ ih =>
    refine List.forall_mem_cons.mpr ⟨⟨_,List.mem_cons_self,here⟩,fun y inside => ?_⟩
    obtain ⟨x,member,same⟩ := ih y inside
    exact ⟨x,List.mem_cons_of_mem _ member,same⟩

theorem mapM_map {γ : Type*} {f : α → Except ε β} {before : α → γ} {after : β → γ}
    (keeps : ∀ x y, f x = .ok y → after y = before x) {xs : List α} {ys : List β}
    (done : xs.mapM f = .ok ys) : ys.map after = xs.map before := by
  have pairs := mapM_ok.mp done
  clear done
  induction pairs with
  | nil => rfl
  | cons here _ ih => rw [List.map_cons,List.map_cons,keeps _ _ here,ih]

theorem mapM_inverse {f : α → β} {g : β → Except ε α} (inverse : ∀ a, g (f a) = .ok a)
    (xs : List α) : (xs.map f).mapM g = .ok xs := by
  induction xs with
  | nil => rfl
  | cons x xs ih =>
    rw [List.map_cons,List.mapM_cons,bind_ok]
    refine ⟨x,inverse x,?_⟩
    rw [bind_ok]
    exact ⟨xs,ih,rfl⟩

def mapValues {κ : Type v} (f : α → Except ε β) : List (κ × α) → Except ε (List (κ × β))
  | [] => .ok []
  | (k,a) :: rest => do
    let b ← f a
    let mapped ← mapValues f rest
    return (k,b) :: mapped

attribute [local simp] mapValues

theorem mapValues_cons {κ : Type v} {f : α → Except ε β} {k : κ} {a : α} {rest : List (κ × α)}
    {mapped : List (κ × β)} : mapValues f ((k,a) :: rest) = .ok mapped ↔
      ∃ b tail, f a = .ok b ∧ mapValues f rest = .ok tail ∧ mapped = (k,b) :: tail := by
  rw [mapValues,bind_ok]
  constructor
  · rintro ⟨b,head,more⟩
    obtain ⟨tail,tails,same⟩ := bind_ok.mp more
    exact ⟨b,tail,head,tails,(Except.ok.inj same).symm⟩
  · rintro ⟨b,tail,head,tails,rfl⟩
    exact ⟨b,head,bind_ok.mpr ⟨tail,tails,rfl⟩⟩

theorem mapValues_inverse {κ : Type v} {f : α → Except ε β} {g : β → Except ε α}
    {rest : List (κ × α)} {mapped : List (κ × β)}
    (inverse : ∀ e ∈ rest, ∀ b, f e.2 = .ok b → g b = .ok e.2)
    (forth : mapValues f rest = .ok mapped) : mapValues g mapped = .ok rest := by
  induction rest generalizing mapped with
  | nil => cases forth; rfl
  | cons e rest ih =>
    obtain ⟨b,tail,head,tails,rfl⟩ := mapValues_cons.mp forth
    have back := inverse e List.mem_cons_self b head
    have others := ih (fun d inside => inverse d (List.mem_cons_of_mem _ inside)) tails
    exact mapValues_cons.mpr ⟨e.2,rest,back,others,rfl⟩

theorem mapValues_total {κ : Type v} {f : α → Except ε β} {rest : List (κ × α)}
    (total : ∀ e ∈ rest, ∃ b, f e.2 = .ok b) : ∃ mapped, mapValues f rest = .ok mapped := by
  induction rest with
  | nil => exact ⟨[],rfl⟩
  | cons e rest ih =>
    obtain ⟨b,head⟩ := total e List.mem_cons_self
    obtain ⟨tail,tails⟩ := ih fun d inside => total d (List.mem_cons_of_mem _ inside)
    exact ⟨(e.1,b) :: tail,mapValues_cons.mpr ⟨b,tail,head,tails,rfl⟩⟩

theorem mapValues_image {κ : Type v} {f : α → Except ε β} {rest : List (κ × α)}
    {mapped : List (κ × β)} (forth : mapValues f rest = .ok mapped) :
    ∀ e ∈ mapped, ∃ a, f a = .ok e.2 := by
  induction rest generalizing mapped with
  | nil =>
    cases forth
    intro e inside
    cases inside
  | cons d rest ih =>
    obtain ⟨b,tail,head,tails,rfl⟩ := mapValues_cons.mp forth
    intro e inside
    rcases List.mem_cons.mp inside with rfl | inside
    · exact ⟨d.2,head⟩
    · exact ih tails e inside

end Fallible
