import Mathlib.Init

/-! Records that pass a check: what a constructor that validates its arguments returns. The check
travels with the record, so a record that exists has passed it. -/
universe u v

variable {ε : Type u} {Fields : Type v}

/-- Fields that `check` accepts. -/
@[ext] structure Checked (check : Fields → Except ε Unit) where
  fields : Fields
  passed : check fields = .ok ()

namespace Checked

variable {check : Fields → Except ε Unit}

/-- The constructor. -/
def new (check : Fields → Except ε Unit) (fields : Fields) : Except ε (Checked check) :=
  match passed : check fields with
  | .ok () => .ok ⟨fields,passed⟩
  | .error e => .error e

theorem new_ok {fields : Fields} {record : Checked check} :
    new check fields = .ok record ↔ record.fields = fields := by
  unfold new
  split
  · rw [Except.ok.injEq,Checked.ext_iff,eq_comm]
  · rename_i failed
    constructor
    · exact nofun
    · rintro rfl
      exact absurd (record.passed.symm.trans failed) nofun

@[simp] theorem new_fields (record : Checked check) : new check record.fields = .ok record :=
  new_ok.mpr rfl

end Checked
