import TestDouble.Proofs.Builder.Faults
import TestDouble.Proofs.Members.Collected

/-!
# A builder is a list of its accepted changes

What a builder holds after any calls is what the accepted changes among them add, put together in the order of the calls: their
types, their members and the last name given (`Builder.gathered_run`). So the request of a fresh builder is the one that could
have been made of all this at once (`request_eq_batch`).
-/

namespace TestDouble

open SourceType

/-! ## What a change adds -/

namespace Change

/-- The types that a change adds: those that its names mean, or those it lists. -/
def addedTypes (w : Workshop) : Change → List SourceType
  | .likeNames names => names.filterMap w.registry.get?
  | .likeTypes types => types
  | _ => []

/-- The members that a change adds: those that a definition spells, in the order of its entries, or of its keys where it is
given as data, or the one added as it is. -/
def addedMembers : Change → List Member
  | .likeDefinition entries => entries.filterMap (fun entry => (Member.ofEntry entry.1 entry.2).toOption)
  | .likeJson (.object fields) => (sortEntries fields).filterMap (fun field => (Member.ofField field.1 field.2).toOption)
  | .addMember member => [member]
  | _ => []

/-- The explicit name that a change gives, if it gives one. -/
def givenName? : Change → Option String
  | .setName name => some name
  | _ => none

end Change

namespace Builder

variable {w : Workshop} {b b' b'' : Builder}

/-! ## What changes leave together -/

/-- What a builder has become when it has taken some changes. Of the types only the distinct ones matter, the members of the
changes are inserted one after another, and the name given last is the explicit one. -/
structure Gathered (w : Workshop) (b b' : Builder) (taken : List Change) : Prop where
  types : distinct b'.types = distinct (b.types ++ taken.flatMap (Change.addedTypes w))
  members : b'.members = b.members.insertAll (taken.flatMap Change.addedMembers)
  explicitName : b'.explicitName = (taken.filterMap Change.givenName?).getLast?.or b.explicitName

/-- A builder that keeps its types, members and explicit name has taken no change. -/
theorem Gathered.of_kept (htypes : b'.types = b.types) (hmembers : b'.members = b.members)
    (hname : b'.explicitName = b.explicitName) : Gathered w b b' [] where
  types := by rw [htypes, List.flatMap_nil, List.append_nil]
  members := hmembers
  explicitName := hname

/-- Changes that are taken after others are taken together with them. -/
theorem Gathered.trans {taken more : List Change} (h : Gathered w b b' taken) (h' : Gathered w b' b'' more) :
    Gathered w b b'' (taken ++ more) where
  types := by
    rw [h'.types, ← distinct_distinct_append, h.types, distinct_distinct_append, List.flatMap_append, List.append_assoc]
  members := by rw [h'.members, h.members, ← Members.insertAll_append, List.flatMap_append]
  explicitName := by
    rw [h'.explicitName, h.explicitName, List.filterMap_append, List.getLast?_append, Option.or_assoc]

/-! ## One change -/

/-- What it takes for a builder to have taken one change. -/
theorem Gathered.of_change {c : Change} (htypes : distinct b'.types = distinct (b.types ++ c.addedTypes w))
    (hmembers : b'.members = b.members.insertAll c.addedMembers)
    (hname : b'.explicitName = c.givenName?.or b.explicitName) : Gathered w b b' [c] where
  types := by rw [htypes, List.flatMap_singleton]
  members := by rw [hmembers, List.flatMap_singleton]
  explicitName := by
    rw [hname]
    cases hgiven : c.givenName? with
    | none => rw [List.filterMap_cons_none hgiven, List.filterMap_nil, List.getLast?_nil]
    | some name => rw [List.filterMap_cons_some hgiven, List.filterMap_nil, List.getLast?_singleton]

/-- A builder that takes the tables of some members has them inserted, and keeps the rest. -/
theorem addMembers_kept {read : Except Refusal (List Member)} (h : (read.map Members.ofList).map b.addMembers = .ok b') :
    ∃ added, read = .ok added ∧ b' = { b with members := b.members.insertAll added } := by
  cases read with
  | error refusal => cases h
  | ok added =>
    cases h
    refine ⟨added, rfl, ?_⟩
    rw [addMembers, Members.merge_ofList]

/-- A change that a builder accepts while open adds what it says. -/
theorem gathered_change {c : Change} (h : b.change w c = .ok b') : Gathered w b b' [c] := by
  have hnone : distinct b.types = distinct (b.types ++ []) := by rw [List.append_nil]
  cases c with
  | likeNames names =>
    rw [change] at h
    cases hresolved : w.registry.resolve names with
    | error refusal =>
      rw [hresolved] at h
      cases h
    | ok types =>
      rw [hresolved] at h
      rw [(addTypes_kept h).1, Registry.eq_of_resolve hresolved, distinct_append_distinct]
      exact .of_change (distinct_eq_self (nodup_names_distinct _)) rfl rfl
  | likeTypes types =>
    rw [(addTypes_kept h).1]
    exact .of_change (distinct_eq_self (nodup_names_distinct _)) rfl rfl
  | likeDefinition entries =>
    rw [change, Members.ofDefinition_eq] at h
    obtain ⟨added, hread, rfl⟩ := addMembers_kept h
    rw [eq_filterMap_of_mapM hread]
    exact .of_change hnone rfl rfl
  | likeJson definition =>
    rw [change, Members.ofJson_eq] at h
    obtain ⟨added, hread, rfl⟩ := addMembers_kept h
    cases definition with
    | object fields =>
      rw [eq_filterMap_of_mapM hread]
      exact .of_change hnone rfl rfl
    | _ => cases hread
  | addMember member =>
    cases h
    exact .of_change hnone rfl rfl
  | setName name =>
    rw [change] at h
    split at h
    · cases h
      exact .of_change hnone rfl rfl
    · cases h

/-! ## A run of calls -/

/-- The builder after calls, one after another. -/
def run (w : Workshop) (b : Builder) (calls : List Call) : Builder := calls.foldl (fun b c => (b.respond w c).2) b

/-- The change that a call makes: the one called for, unless it is refused. -/
def change? (w : Workshop) (b : Builder) : Call → Option Change
  | .change c => if (b.respond w (.change c)).1.isOk then some c else none
  | _ => none

/-- The changes among some calls that were not refused, in the order of the calls. -/
def accepted (w : Workshop) (b : Builder) : List Call → List Change
  | [] => []
  | c :: rest => (b.change? w c).toList ++ accepted w (b.respond w c).2 rest

/-- A call adds what the change that it makes says, and nothing if it makes none. -/
theorem gathered_respond (w : Workshop) (b : Builder) (c : Call) :
    Gathered w b (b.respond w c).2 (b.change? w c).toList := by
  rcases closes_or_change c with hc | ⟨change, rfl⟩
  · have hnone : b.change? w c = none := by
      cases c with
      | change change => cases hc
      | _ => rfl
    rw [hnone]
    rcases respond_of_closes hc w b with hclosed | ⟨name, -, hdrawn⟩
    · rw [hclosed]
      exact .of_kept rfl rfl rfl
    · rw [hdrawn]
      exact .of_kept rfl rfl rfl
  · rw [change?, respond_change_eq]
    cases happly : b.apply w change with
    | error refusal => exact .of_kept rfl rfl rfl
    | ok changed =>
      rw [apply_eq] at happly
      split at happly
      · cases happly
      · exact gathered_change happly

/-- Calls add together what the changes among them that were not refused say. -/
theorem gathered_run (w : Workshop) (b : Builder) (calls : List Call) :
    Gathered w b (b.run w calls) (b.accepted w calls) := by
  induction calls generalizing b with
  | nil => exact .of_kept rfl rfl rfl
  | cons c rest ih => exact (gathered_respond w b c).trans (ih (b.respond w c).2)

end Builder

/-- A run of a builder is one batch. Take a fresh builder in any workshop and any calls for it, changes or not, refused or not.
Asked for its request after them, it answers the request that is made at once of the types, the members and the name of the
changes that were not refused, in the order of the calls: the types put together, the members collected table by table, with
each name where it came first and the value that came last under it, and the name given last, if one was. -/
theorem request_eq_batch (w : Workshop) (calls : List Call) :
    let accepted := Builder.accepted w {} calls
    ((Builder.run w {} calls).respond w .request).1 =
      .ok (.request (Request.ofTypes (accepted.flatMap (Change.addedTypes w))
        (Members.collect (accepted.flatMap Change.addedMembers)) (accepted.filterMap Change.givenName?).getLast?)) := by
  intro accepted
  have hgathered : Builder.Gathered w {} (Builder.run w {} calls) accepted := Builder.gathered_run w {} calls
  have hmembers : (Builder.run w {} calls).members = Members.collect (accepted.flatMap Change.addedMembers) := by
    rw [hgathered.members, ← Members.ofList_eq_collect]
    rfl
  have hname : (Builder.run w {} calls).explicitName = (accepted.filterMap Change.givenName?).getLast? := by
    rw [hgathered.explicitName, Option.or_none]
  have htypes : distinct (Builder.run w {} calls).types = distinct (accepted.flatMap (Change.addedTypes w)) := hgathered.types
  simp only [Builder.respond, Builder.request, hmembers, hname, Request.ofTypes_congr htypes]

end TestDouble
