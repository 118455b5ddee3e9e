import Dinkster.Lib.Dict
import Mathlib

/-! Liveness of resource references: live runs pin what they hold, a release condemns what it is
about to drop. A pinned resource cannot be condemned and a condemned one cannot be pinned. -/
namespace Dinkster

structure ResourcePins where
  counts : Dict String Nat
  condemned : Finset String
  deriving DecidableEq

namespace ResourcePins

def empty : ResourcePins := ⟨Dict.empty,∅⟩

def count (p : ResourcePins) (rid : String) : Nat := (p.counts.get? rid).getD 0

def pinned (p : ResourcePins) (rid : String) : Bool := 0 < p.count rid

/-- Registers one live reference; `none` refuses the pin of a condemned resource. -/
def pin (p : ResourcePins) (rid : String) : Option ResourcePins :=
  if rid ∈ p.condemned then none
  else some { p with counts := p.counts.set rid (p.count rid + 1) }

def unpin (p : ResourcePins) (rid : String) : ResourcePins :=
  if p.count rid ≤ 1 then { p with counts := p.counts.erase rid }
  else { p with counts := p.counts.set rid (p.count rid - 1) }

/-- Marks a resource as being released; `none` for a pinned or condemned one. -/
def condemn (p : ResourcePins) (rid : String) : Option ResourcePins :=
  if p.pinned rid ∨ rid ∈ p.condemned then none
  else some { p with condemned := insert rid p.condemned }

def absolve (p : ResourcePins) (rid : String) : ResourcePins :=
  { p with condemned := p.condemned.erase rid }

def absolveAll (p : ResourcePins) (rids : List String) : ResourcePins := rids.foldl absolve p

def Exclusive (p : ResourcePins) : Prop := ∀ rid ∈ p.condemned, p.count rid = 0

variable {p q : ResourcePins} {rid other : String}

theorem pin_spec (pinned : p.pin rid = some q) :
    rid ∉ p.condemned ∧ q.condemned = p.condemned ∧
      ∀ other, q.count other = p.count other + if other = rid then 1 else 0 := by
  unfold pin at pinned
  split at pinned
  · cases pinned
  · rename_i innocent
    obtain rfl := Option.some.inj pinned
    refine ⟨innocent,rfl,?_⟩
    intro other
    by_cases same : other = rid
    · subst same
      simp [count]
    · simp [count,Dict.get?_set_ne _ _ same,same]

@[simp] theorem condemned_unpin : (p.unpin rid).condemned = p.condemned := by
  unfold unpin
  split <;> rfl

theorem count_unpin (other : String) :
    (p.unpin rid).count other = p.count other - if other = rid then 1 else 0 := by
  unfold unpin
  by_cases same : other = rid
  · subst same
    rw [if_pos rfl]
    split
    · rename_i last
      rw [count,Dict.get?_erase,if_pos rfl]
      simp only [Option.getD_none]
      omega
    · rw [count,Dict.get?_set_self,Option.getD_some]
  · rw [if_neg same,Nat.sub_zero]
    split
    · rw [count,Dict.get?_erase,if_neg same,← count]
    · rw [count,Dict.get?_set_ne _ _ same,← count]

theorem condemn_spec (condemned : p.condemn rid = some q) :
    rid ∉ p.condemned ∧ p.count rid = 0 ∧ q.condemned = insert rid p.condemned ∧
      q.counts = p.counts := by
  unfold condemn at condemned
  split at condemned
  · cases condemned
  · rename_i free
    obtain rfl := Option.some.inj condemned
    rw [not_or] at free
    have unpinned : p.count rid = 0 := by simpa [pinned] using free.1
    exact ⟨free.2,unpinned,rfl,rfl⟩

@[simp] theorem counts_absolveAll (rids : List String) :
    (p.absolveAll rids).counts = p.counts := by
  induction rids generalizing p with
  | nil => rfl
  | cons rid rest ih =>
    rw [absolveAll,List.foldl_cons,← absolveAll,ih]
    rfl

@[simp] theorem mem_absolveAll (rids : List String) :
    rid ∈ (p.absolveAll rids).condemned ↔ rid ∈ p.condemned ∧ rid ∉ rids := by
  induction rids generalizing p with
  | nil => simp [absolveAll]
  | cons first rest ih =>
    rw [absolveAll,List.foldl_cons,← absolveAll,ih]
    simp only [absolve,Finset.mem_erase,List.mem_cons,not_or]
    tauto

theorem exclusive_pin (exclusive : p.Exclusive) (pinned : p.pin rid = some q) : q.Exclusive := by
  obtain ⟨innocent,same,counted⟩ := pin_spec pinned
  intro other inside
  rw [same] at inside
  have apart : other ≠ rid := fun equal => innocent (equal ▸ inside)
  rw [counted other,exclusive other inside,if_neg apart]

theorem exclusive_unpin (exclusive : p.Exclusive) : (p.unpin rid).Exclusive := by
  intro other inside
  rw [condemned_unpin] at inside
  rw [count_unpin,exclusive other inside]
  exact Nat.zero_sub _

end ResourcePins

end Dinkster
