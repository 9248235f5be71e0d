import TestDouble.Builder.Bench

/-!
# What a change comes to

A builder takes a change in place, and all its checks come before what it changes; so a change that is refused, for whatever
reason, leaves the builder as it was (`atomic_edit`). Hence a change comes to a result that is worked out on the side: what an open
builder becomes, or why it refuses (`apply_eq`, `respond_change_eq`).
-/

namespace TestDouble

namespace Builder

/-! ## Changes in place -/

/-- A closed builder is refused, and an open one is not. -/
theorem on_ensureOpen (b : Builder) : ensureOpen.on b = (if b.finalized then .error .finalized else .ok (), b) := by
  rw [ensureOpen, Edit.on_bind_of_ok (Edit.on_get b)]
  split <;> rfl

/-- Whether a builder is open is found out without changing it. -/
theorem readOnly_ensureOpen : ensureOpen.ReadOnly := fun b => by rw [on_ensureOpen]

/-- Types that are refused leave the builder as it was. -/
theorem atomic_takeTypes (incoming : List SourceType) : (takeTypes incoming).Atomic :=
  Edit.readOnly_get.atomic_bind fun _ => (Edit.readOnly_lift _).atomic_bind fun _ => Edit.atomic_modify _

/-- Members that are not read leave the builder as it was. -/
theorem atomic_takeMembers (read : Except Refusal Members) : (takeMembers read).Atomic :=
  (Edit.readOnly_lift read).atomic_bind fun _ => Edit.atomic_modify _

/-- A name that is refused leaves the builder as it was. -/
theorem atomic_takeName (rules : IdentifierRules) (name : String) : (takeName rules name).Atomic := by
  rw [takeName]
  split
  · exact Edit.atomic_modify _
  · exact Edit.atomic_throw _

/-- A change that is faulty leaves the builder as it was. -/
theorem atomic_take (w : Workshop) (c : Change) : (take w c).Atomic := by
  cases c with
  | likeNames names => exact (Edit.readOnly_lift _).atomic_bind fun types => atomic_takeTypes types
  | likeTypes types => exact atomic_takeTypes types
  | likeDefinition entries => exact atomic_takeMembers _
  | likeJson definition => exact atomic_takeMembers _
  | addMember member => exact Edit.atomic_modify _
  | setName name => exact atomic_takeName _ name

/-- A change that is refused leaves the builder as it was. -/
theorem atomic_edit (w : Workshop) (c : Change) : (edit w c).Atomic :=
  readOnly_ensureOpen.atomic_bind fun _ => atomic_take w c

/-! ## Changes worked out on the side -/

/-- The builder with more types. -/
def addTypes (b : Builder) (incoming : List SourceType) : Except Refusal Builder :=
  (joinTypes b.types incoming).map (fun types => { b with types := types })

/-- The builder with more members. -/
def addMembers (b : Builder) (added : Members) : Builder := { b with members := b.members.merge added }

/-- The builder after a change, finalized or not. -/
def change (w : Workshop) (b : Builder) : Change → Except Refusal Builder
  | .likeNames names =>
    match w.registry.resolve names with
    | .error refusal => .error refusal
    | .ok types => b.addTypes types
  | .likeTypes types => b.addTypes types
  | .likeDefinition entries => (Members.ofDefinition entries).map b.addMembers
  | .likeJson definition => (Members.ofJson definition).map b.addMembers
  | .addMember member => .ok { b with members := b.members.insert member }
  | .setName name =>
    if w.config.identifiers.allowsType name then .ok { b with explicitName := some name } else .error (.illegalName name)

/-- Types are taken as they are added. -/
theorem edited_takeTypes (incoming : List SourceType) (b : Builder) : (takeTypes incoming).edited b = b.addTypes incoming := by
  rw [takeTypes, Edit.edited_bind_of_ok (Edit.on_get b), Edit.edited_lift_bind, addTypes]
  cases joinTypes b.types incoming <;> rfl

/-- Members that are read are taken as they are added. -/
theorem edited_takeMembers (read : Except Refusal Members) (b : Builder) :
    (takeMembers read).edited b = read.map b.addMembers := by
  rw [takeMembers, Edit.edited_lift_bind]
  cases read <;> rfl

/-- A builder takes a change as it is worked out on the side. -/
theorem edited_take (w : Workshop) (c : Change) (b : Builder) : (take w c).edited b = b.change w c := by
  cases c with
  | likeNames names =>
    rw [take, Edit.edited_lift_bind, change]
    cases w.registry.resolve names with
    | error refusal => rfl
    | ok types => exact edited_takeTypes types b
  | likeTypes types => exact edited_takeTypes types b
  | likeDefinition entries => exact edited_takeMembers _ b
  | likeJson definition => exact edited_takeMembers _ b
  | addMember member => rfl
  | setName name =>
    rw [take, takeName, change]
    split <;> rfl

/-- A closed builder refuses a change, and an open one becomes what is worked out on the side. -/
theorem apply_eq (w : Workshop) (b : Builder) (c : Change) :
    b.apply w c = if b.finalized then .error .finalized else b.change w c := by
  have hopen := on_ensureOpen b
  rw [apply, edit]
  split at hopen
  · rw [Edit.edited_bind_of_error hopen, if_pos ‹_›]
  · rw [Edit.edited_bind_of_ok hopen, if_neg ‹_›, edited_take]

/-! ## Changes that are called for -/

/-- A change that is called for is answered by a refusal, and the builder is as it was, or it is done. -/
theorem respond_change_eq (w : Workshop) (b : Builder) (c : Change) :
    b.respond w (.change c) =
      match b.apply w c with
      | .error refusal => (.error refusal, b)
      | .ok changed => (.ok .done, changed) := by
  rw [respond, (atomic_edit w c).on_eq b, apply]
  cases (edit w c).edited b <;> rfl

end Builder

end TestDouble
