import BipaNodes.Storage.Concurrent

/-! Where imports of several replicas have mixed in the table, the next one that
meets no other commit sets it right. -/

set_option autoImplicit false

namespace BipaNodes.Storage

open Domain (sampleNode)
open Replacement (Event Sound State)

variable {Tid : Type} [DecidableEq Tid]

/-- Whatever any number of replicas have done to the table before, a call between
whose DELETE and COMMIT nobody else commits leaves exactly its own list, which
readers get until the next commit. -/
theorem mixture_heals (calls : Tid → Call) (table : List TableRow)
    {before middle after : List (Event Tid)} {tid : Tid} {final : State Tid TableRow}
    (whole : ∀ node ∈ (calls tid).nodes, WholeMicros node)
    (alone : ∀ event ∈ middle, ∀ other, event ≠ .commit other)
    (quiet : ∀ event ∈ after, ∀ other, event ≠ .commit other)
    (ran : (database calls).run (Replacement.initial table)
      (before ++ .delete tid :: (middle ++ .commit tid :: after)) = some final)
    {delivered : List TableRow} (ordered : OrderedByRank final.liveRows delivered) :
    listNodes (.ok delivered) = .ok (calls tid).nodes := by
  have initially : Sound (program calls) (Replacement.initial table) := Sound.initial table
  rw [Machine.run_append] at ran
  obtain ⟨begun, ranBefore, ran⟩ := Option.bind_eq_some_iff.mp ran
  have sound := Machine.run_preserves (fun _ _ _ kept stepped => Sound.step kept stepped)
    initially ranBefore
  obtain ⟨deleting, deletes, ran⟩ := Option.bind_eq_some_iff.mp ran
  rw [Machine.run_append] at ran
  obtain ⟨inserted, ranMiddle, ran⟩ := Option.bind_eq_some_iff.mp ran
  obtain ⟨committed, commits, ranAfter⟩ := Option.bind_eq_some_iff.mp ran
  obtain ⟨soundAtCommit, covered⟩ := Replacement.covered_run (sound.step deletes)
    (Replacement.covered_delete sound deletes) alone ranMiddle
  have planned := Replacement.liveRows_commit_of_covered soundAtCommit commits covered
  obtain ⟨inRange, _, rows⟩ := insertedRows_eq_some.mp planned
  have held : final.liveRows = rowsOf (calls tid).importedAt (calls tid).nodes := by
    rw [Replacement.liveRows_run quiet ranAfter, rows]
    rfl
  rw [held] at ordered
  have numbered : Numbered (rowsOf (calls tid).importedAt (calls tid).nodes) :=
    numbered_rowsOf inRange.length_le
  rw [numbered.delivered_eq (List.Perm.refl _) ordered]
  exact listNodes_rowsOf inRange whole

/-- The two replicas, and a third one. -/
def threeReplicas : Option Bool → Call
  | some replica => replicas replica
  | none => { nodes := [sampleNode "02ab"], importedAt := 1 }

/-- Both DELETEs start on the empty table, and the table ends up with both lists. -/
def mixedUp : List (Event (Option Bool)) :=
  [.begin (some false), .begin (some true), .delete (some false), .delete (some true),
    .insert (some false), .insertRow (some false), .insert (some true), .insertRow (some true),
    .commit (some false), .commit (some true), .begin none]

/-- The third replica then imports alone. -/
def thirdAlone : List (Event (Option Bool)) :=
  .delete none :: ([.deleteRow none 0, .deleteRow none 1, .insert none, .insertRow none] ++
    .commit none :: [])

theorem mixture_heals_sample :
    ∃ mixed final, (database threeReplicas).run (Replacement.initial []) mixedUp = some mixed ∧
      mixed.liveRows.length = 2 ∧
      (database threeReplicas).run (Replacement.initial []) (mixedUp ++ thirdAlone) = some final ∧
      ∃ delivered, OrderedByRank final.liveRows delivered ∧
        listNodes (.ok delivered) = .ok [sampleNode "02ab"] := by
  have mixes : ∃ mixed, (database threeReplicas).run (Replacement.initial []) mixedUp =
      some mixed ∧ mixed.liveRows.length = 2 := ⟨_, rfl, rfl⟩
  have heals : ∃ final, (database threeReplicas).run (Replacement.initial [])
      (mixedUp ++ thirdAlone) = some final ∧
        final.liveRows = rowsOf 1 [sampleNode "02ab"] := ⟨_, rfl, rfl⟩
  obtain ⟨mixed, ranMixed, both⟩ := mixes
  obtain ⟨final, ran, held⟩ := heals
  have ordered : OrderedByRank final.liveRows final.liveRows := by
    rw [held]
    decide
  refine ⟨mixed, final, ranMixed, both, ran, final.liveRows, ordered,
    mixture_heals threeReplicas [] ?_ ?_ ?_ ran ordered⟩
  · simp [threeReplicas, sampleNode, WholeMicros]
  · simp
  · simp

end BipaNodes.Storage
