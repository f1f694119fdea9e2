import BipaNodes.Storage.RoundTrip

/-!
# The repository of the tests

`FakeRepository` keeps a list in memory. Seen by one caller it agrees with the
repository over PostgreSQL as long as the lists are such that the table takes
them.
-/

set_option autoImplicit false

namespace BipaNodes.Storage

open Domain (Node sampleNode)

structure FakeRepository where
  nodes : List Node := []
  replaceCalls : List (List Node) := []
  fail : Bool := false
  panicOnList : Bool := false

namespace FakeRepository

def setFailing (fail : Bool) (repo : FakeRepository) : FakeRepository := { repo with fail }

def replaceAll (nodes : List Node) (repo : FakeRepository) :
    Except StorageError Nat × FakeRepository :=
  let repo := { repo with replaceCalls := repo.replaceCalls ++ [nodes] }
  if repo.fail then
    (.error (.database .poolTimedOut), repo)
  else
    (.ok nodes.length, { repo with nodes })

/-- `none` where the scripted panic is set. -/
def listNodes (repo : FakeRepository) : Option (Except StorageError (List Node)) :=
  if repo.panicOnList then none
  else if repo.fail then some (.error (.database .poolTimedOut))
  else some (.ok repo.nodes)

end FakeRepository

/-- What a caller does with a repository; `setFailing` is the database going
away and coming back. -/
inductive RepositoryCall where
  | setFailing (fail : Bool)
  | replaceAll (nodes : List Node)
  | listNodes

inductive RepositoryAnswer where
  | switched
  | replaced (result : Except StorageError Nat)
  | listed (result : Option (Except StorageError (List Node)))
  deriving DecidableEq

def FakeRepository.answer (repo : FakeRepository) :
    RepositoryCall → RepositoryAnswer × FakeRepository
  | .setFailing fail => (.switched, repo.setFailing fail)
  | .replaceAll nodes =>
      let (result, after) := repo.replaceAll nodes
      (.replaced result, after)
  | .listNodes => (.listed repo.listNodes, repo)

def FakeRepository.answers (repo : FakeRepository) : List RepositoryCall → List RepositoryAnswer
  | [] => []
  | call :: calls => (repo.answer call).1 :: (repo.answer call).2.answers calls

/-!
## The same calls on PostgreSQL
-/

/-- The committed table, and whether the pool has no connection to give. -/
structure PgRepository where
  table : List TableRow := []
  unreachable : Bool := false

/-- What the database leaves open: `now()` in the transaction on a table, and
the order in which rows of one rank are delivered. -/
structure PgServer where
  now : List TableRow → Int
  deliver : List TableRow → List TableRow
  ordered : ∀ rows, OrderedByRank rows (deliver rows)

namespace PgRepository

def link (repo : PgRepository) : Link :=
  if repo.unreachable then fun _ => .notExecuted .poolTimedOut else .responsive

def answer (server : PgServer) (repo : PgRepository) :
    RepositoryCall → RepositoryAnswer × PgRepository
  | .setFailing fail => (.switched, { repo with unreachable := fail })
  | .replaceAll nodes =>
      let (result, table) := Storage.replaceAll repo.link (server.now repo.table) repo.table nodes
      (.replaced result, { repo with table })
  | .listNodes =>
      let delivered :=
        if repo.unreachable then .error .poolTimedOut else .ok (server.deliver repo.table)
      (.listed (some (Storage.listNodes delivered)), repo)

def answers (server : PgServer) (repo : PgRepository) :
    List RepositoryCall → List RepositoryAnswer
  | [] => []
  | call :: calls =>
      (repo.answer server call).1 :: (repo.answer server call).2.answers server calls

end PgRepository

/-!
## Agreement
-/

/-- A list that the table takes; where the database is away, it only has to fit
the columns. -/
def Suits (unreachable : Bool) : List RepositoryCall → Prop
  | [] => True
  | .setFailing fail :: calls => Suits fail calls
  | .replaceAll nodes :: calls =>
      (if unreachable then InRange 0 nodes else Accepted nodes) ∧ Suits unreachable calls
  | .listNodes :: calls => Suits unreachable calls

def WholeCall : RepositoryCall → Prop
  | .replaceAll nodes => ∀ node ∈ nodes, WholeMicros node
  | _ => True

/-- The table holds the list of the double. -/
structure Doubles (fake : FakeRepository) (repo : PgRepository) : Prop where
  reachable : fake.fail = repo.unreachable
  quiet : fake.panicOnList = false
  inRange : InRange 0 fake.nodes
  whole : ∀ node ∈ fake.nodes, WholeMicros node
  table : ∃ importedAt, repo.table = rowsOf importedAt fake.nodes

variable {fake : FakeRepository} {repo : PgRepository} {server : PgServer} {nodes : List Node}

theorem Doubles.initial : Doubles {} {} where
  reachable := rfl
  quiet := rfl
  inRange := ⟨by simp, by simp⟩
  whole := by simp
  table := ⟨0, rfl⟩

theorem Doubles.setFailing (doubles : Doubles fake repo) (fail : Bool) :
    Doubles (fake.setFailing fail) { repo with unreachable := fail } :=
  ⟨rfl, doubles.quiet, doubles.inRange, doubles.whole, doubles.table⟩

theorem Doubles.listNodes (doubles : Doubles fake repo) :
    (repo.answer server .listNodes).1 = (fake.answer .listNodes).1 := by
  obtain ⟨importedAt, table⟩ := doubles.table
  simp only [PgRepository.answer, FakeRepository.answer, FakeRepository.listNodes, doubles.quiet,
    doubles.reachable]
  cases repo.unreachable with
  | true => rfl
  | false =>
      have numbered : Numbered (rowsOf importedAt fake.nodes) :=
        numbered_rowsOf doubles.inRange.length_le
      have ordered := server.ordered repo.table
      have delivered : server.deliver repo.table = rowsOf importedAt fake.nodes :=
        numbered.delivered_eq (by rw [table]) ordered
      simp [delivered, listNodes_rowsOf doubles.inRange doubles.whole]

theorem replaceAll_unreachable (inRange : InRange 0 nodes) (importedAt : Int)
    (table : List TableRow) :
    Storage.replaceAll (fun _ => .notExecuted .poolTimedOut) importedAt table nodes =
      (.error (.database .poolTimedOut), table) := by
  unfold Storage.replaceAll
  rw [toColumns_eq_ok.mpr ⟨inRange, rfl⟩]
  rfl

theorem replaceAll_responsive (accepted : Accepted nodes) (importedAt : Int)
    (table : List TableRow) :
    Storage.replaceAll .responsive importedAt table nodes =
      (.ok nodes.length, rowsOf importedAt nodes) := by
  have reaches : ReachesCommit Link.responsive nodes := ⟨⟨rfl, rfl, rfl⟩, accepted⟩
  rw [replaceAll_of_reachesCommit reaches]
  rfl

/-- While the database is away both time out, unless a list is rejected before
the pool is asked. -/
theorem Doubles.replaceAll_away (doubles : Doubles fake repo) (away : repo.unreachable = true) :
    (repo.answer server (.replaceAll nodes)).1 = (fake.answer (.replaceAll nodes)).1 ↔
      InRange 0 nodes := by
  have fails : fake.fail = true := doubles.reachable.trans away
  simp only [PgRepository.answer, PgRepository.link, FakeRepository.answer,
    FakeRepository.replaceAll, away, fails, if_true]
  by_cases inRange : InRange 0 nodes
  · simp [replaceAll_unreachable inRange, inRange]
  · obtain ⟨field, value, rejected⟩ := replaceAll_of_tooLarge (tooLarge_iff.mpr inRange)
    simp [rejected, inRange]

theorem Doubles.replaceAll_there (doubles : Doubles fake repo) (there : repo.unreachable = false) :
    (repo.answer server (.replaceAll nodes)).1 = (fake.answer (.replaceAll nodes)).1 ↔
      Accepted nodes := by
  have works : fake.fail = false := doubles.reachable.trans there
  simp only [PgRepository.answer, PgRepository.link, FakeRepository.answer,
    FakeRepository.replaceAll, there, works, Bool.false_eq_true, if_false]
  by_cases accepted : Accepted nodes
  · simp [replaceAll_responsive accepted, accepted]
  · have stops : ¬ ReachesCommit Link.responsive nodes := fun reaches => accepted reaches.2
    obtain ⟨error, failed⟩ :=
      replaceAll_of_not_reachesCommit stops (server.now repo.table) repo.table
    simp [failed, accepted]

theorem Doubles.replaceAll_iff (doubles : Doubles fake repo) :
    (repo.answer server (.replaceAll nodes)).1 = (fake.answer (.replaceAll nodes)).1 ↔
      if repo.unreachable then InRange 0 nodes else Accepted nodes := by
  cases reachable : repo.unreachable with
  | true => simpa using doubles.replaceAll_away reachable
  | false => simpa using doubles.replaceAll_there reachable

theorem Doubles.replaceAll (doubles : Doubles fake repo)
    (suits : if repo.unreachable then InRange 0 nodes else Accepted nodes)
    (whole : ∀ node ∈ nodes, WholeMicros node) :
    Doubles (fake.answer (.replaceAll nodes)).2 (repo.answer server (.replaceAll nodes)).2 ∧
      (repo.answer server (.replaceAll nodes)).2.unreachable = repo.unreachable := by
  obtain ⟨importedAt, table⟩ := doubles.table
  cases reachable : repo.unreachable with
  | true =>
      have fails : fake.fail = true := doubles.reachable.trans reachable
      simp only [reachable, if_true] at suits
      simp only [PgRepository.answer, PgRepository.link, FakeRepository.answer,
        FakeRepository.replaceAll, reachable, fails, if_true, replaceAll_unreachable suits,
        and_true]
      exact ⟨rfl, doubles.quiet, doubles.inRange, doubles.whole, importedAt, table⟩
  | false =>
      have works : fake.fail = false := doubles.reachable.trans reachable
      simp only [reachable, Bool.false_eq_true, if_false] at suits
      simp only [PgRepository.answer, PgRepository.link, FakeRepository.answer,
        FakeRepository.replaceAll, reachable, works, Bool.false_eq_true, if_false,
        replaceAll_responsive suits, and_true]
      exact ⟨rfl, doubles.quiet, suits.inRange, whole, server.now repo.table, rfl⟩

theorem Doubles.answers_iff (doubles : Doubles fake repo) {calls : List RepositoryCall}
    (whole : ∀ call ∈ calls, WholeCall call) :
    repo.answers server calls = fake.answers calls ↔ Suits repo.unreachable calls := by
  induction calls generalizing fake repo with
  | nil => simp [PgRepository.answers, FakeRepository.answers, Suits]
  | cons call calls ih =>
      have rest := fun other member => whole other (List.mem_cons_of_mem call member)
      have own := whole call List.mem_cons_self
      rw [PgRepository.answers, FakeRepository.answers, List.cons.injEq]
      cases call with
      | setFailing fail => exact (and_iff_right rfl).trans (ih (doubles.setFailing fail) rest)
      | listNodes => exact (and_iff_right doubles.listNodes).trans (ih doubles rest)
      | replaceAll nodes =>
          rw [doubles.replaceAll_iff]
          constructor
          · rintro ⟨suits, later⟩
            obtain ⟨after, same⟩ := doubles.replaceAll suits own
            exact ⟨suits, same ▸ (ih after rest).mp later⟩
          · rintro ⟨suits, later⟩
            obtain ⟨after, same⟩ := doubles.replaceAll suits own
            exact ⟨suits, (ih after rest).mpr (same.symm ▸ later)⟩

/-- From an empty table on, the double gives every answer of the repository that
it stands in for exactly where the lists that are stored meanwhile suit the table. -/
theorem fake_agrees_iff (server : PgServer) (calls : List RepositoryCall)
    (whole : ∀ call ∈ calls, WholeCall call) :
    PgRepository.answers server {} calls = FakeRepository.answers {} calls ↔
      Suits false calls :=
  Doubles.initial.answers_iff whole

def rankLe (left right : TableRow) : Bool := left.rank.toInt ≤ right.rank.toInt

def sortingServer : PgServer where
  now _ := 0
  deliver rows := rows.mergeSort rankLe
  ordered rows := by
    have sorted : (rows.mergeSort rankLe).Pairwise fun left right => rankLe left right :=
      List.pairwise_mergeSort (by grind [rankLe]) (by grind [rankLe]) rows
    exact ⟨List.mergeSort_perm rows _, sorted.imp of_decide_eq_true⟩

/-- An import, an outage with a failed import, and the list that outlives it. -/
def outage : List RepositoryCall :=
  [.replaceAll [sampleNode "03cd", sampleNode "02ab"], .setFailing true,
    .replaceAll [], .listNodes, .setFailing false, .listNodes]

theorem suits_outage : Suits false outage := by
  have first : Accepted [sampleNode "03cd", sampleNode "02ab"] :=
    ⟨by unfold InRange; decide, by decide, by decide⟩
  exact ⟨first, ⟨by simp, by simp⟩, trivial⟩

theorem whole_outage : ∀ call ∈ outage, WholeCall call := by
  simp [outage, WholeCall, sampleNode, WholeMicros]

theorem fake_agrees_iff_sample :
    PgRepository.answers sortingServer {} outage = FakeRepository.answers {} outage ∧
      PgRepository.answers sortingServer {} [.replaceAll [sampleNode "02ab", sampleNode "02ab"]] ≠
        FakeRepository.answers {} [.replaceAll [sampleNode "02ab", sampleNode "02ab"]] := by
  refine ⟨(fake_agrees_iff sortingServer outage whole_outage).mpr suits_outage, fun agrees => ?_⟩
  have suits := (fake_agrees_iff sortingServer _
    (by simp [WholeCall, sampleNode, WholeMicros])).mp agrees
  exact absurd suits.1.distinct (by decide)

end BipaNodes.Storage
