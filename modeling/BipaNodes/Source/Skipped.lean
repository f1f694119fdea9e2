import BipaNodes.Source.DtoProperties
import BipaNodes.Source.Mempool

/-!
# Skipped records

What a fetch logs about the records it skips, and that nodes and warnings
together account for every element of the body.
-/

set_option autoImplicit false

namespace BipaNodes.Source

open Domain (Node)

/-- A warning of `parse_records`. -/
inductive Warning where
  | malformed (index : Nat) (error : DeserializeError)
  | invalid (index : Nat) (publicKey : String) (error : ValidationError)
  deriving DecidableEq, Repr

/-- The index of the record that is skipped. -/
def Warning.index : Warning → Nat
  | .malformed index _ => index
  | .invalid index _ _ => index

inductive LogLine where
  | warn (warning : Warning)
  | debug (received valid skipped : Nat)
  deriving DecidableEq, Repr

def readRecord (index : Nat) (record : Value) : Except Warning Node :=
  match fromValue record with
  | .error error => .error (.malformed index error)
  | .ok dto =>
      match dto.toNode with
      | .ok node => .ok node
      | .error error => .error (.invalid index dto.publicKey error)

/-- `parse_records` on the records from position `index` on. -/
def parseRecordsFrom (index : Nat) : List Value → List Node × List Warning
  | [] => ([], [])
  | record :: records =>
      let (nodes, warnings) := parseRecordsFrom (index + 1) records
      match readRecord index record with
      | .ok node => (node :: nodes, warnings)
      | .error warning => (nodes, warning :: warnings)

/-- `fetch_nodes` with its log lines. -/
def fetchNodesLogged (decode : List UInt8 → Except String (List Value))
    (sent : Except String HttpResponse) : Except SourceError (List Node) × List LogLine :=
  match sent with
  | .error cause => (.error (.request cause), [])
  | .ok response =>
      if response.isSuccess then
        match response.body with
        | .error cause => (.error (.request cause), [])
        | .ok body =>
            match decode body with
            | .error cause => (.error (.decode cause), [])
            | .ok records =>
                let (nodes, warnings) := parseRecordsFrom 0 records
                (.ok nodes, warnings.map .warn ++
                  [.debug records.length nodes.length (records.length - nodes.length)])
      else
        (.error (.status response.status), [])

/-!
## Reasons
-/

/-- The check that a record fails first. -/
inductive FirstFailure (dto : MempoolNodeDto) : ValidationError → Prop where
  | emptyPublicKey (empty : dto.publicKey = "") : FirstFailure dto .emptyPublicKey
  | negativeCapacity (nonempty : dto.publicKey ≠ "") (negative : dto.capacity.toInt < 0) :
      FirstFailure dto (.negativeCapacity dto.capacity)
  | invalidFirstSeen (nonempty : dto.publicKey ≠ "") (nonnegative : 0 ≤ dto.capacity.toInt)
      (invalid : ∀ instant, Domain.timestampFromUnix dto.firstSeen ≠ .ok instant) :
      FirstFailure dto (.invalidFirstSeen dto.firstSeen)

theorem firstFailure_of_toNode {dto : MempoolNodeDto} {error : ValidationError}
    (rejected : dto.toNode = .error error) : FirstFailure dto error := by
  unfold MempoolNodeDto.toNode at rejected
  by_cases empty : dto.publicKey = ""
  · rw [if_pos (by rw [empty]; rfl)] at rejected
    cases rejected
    exact .emptyPublicKey empty
  · rw [if_neg (by simpa using empty)] at rejected
    unfold capacityFromWire at rejected
    split at rejected
    · next nonnegative =>
        cases seen : Domain.timestampFromUnix dto.firstSeen with
        | ok instant =>
            rw [seen] at rejected
            cases rejected
        | error outOfRange =>
            rw [seen] at rejected
            cases rejected
            refine .invalidFirstSeen empty nonnegative ?_
            intro instant valid
            cases seen.symm.trans valid
    · next negative =>
        cases rejected
        exact .negativeCapacity empty (Int.not_le.mp negative)

/-- What a warning says about the record that it is about. -/
inductive Explains (record : Value) : Warning → Prop where
  | malformed {index : Nat} {error : DeserializeError} (unread : ∀ dto, ¬ Spells record dto) :
      Explains record (.malformed index error)
  | invalid {index : Nat} {dto : MempoolNodeDto} {error : ValidationError}
      (spelled : Spells record dto) (fails : FirstFailure dto error) :
      Explains record (.invalid index dto.publicKey error)

def Spelled (record : Value) (node : Node) : Prop :=
  ∃ dto, Spells record dto ∧ Carries dto node

theorem readRecord_ok {index : Nat} {record : Value} {node : Node}
    (read : readRecord index record = .ok node) :
    parseRecord record = some node ∧ Spelled record node := by
  have parsed : parseRecord record = some node := by
    unfold readRecord at read
    unfold parseRecord
    cases visited : fromValue record with
    | error error =>
        rw [visited] at read
        cases read
    | ok dto =>
        rw [visited] at read
        dsimp only at read ⊢
        cases built : dto.toNode with
        | error error =>
            rw [built] at read
            cases read
        | ok accepted =>
            rw [built] at read
            cases read
            rfl
  exact ⟨parsed, parseRecord_eq_some.mp parsed⟩

theorem readRecord_error {index : Nat} {record : Value} {warning : Warning}
    (skipped : readRecord index record = .error warning) :
    parseRecord record = none ∧ warning.index = index ∧ Explains record warning := by
  unfold readRecord at skipped
  unfold parseRecord
  cases visited : fromValue record with
  | error error =>
      rw [visited] at skipped
      cases skipped
      refine ⟨rfl, rfl, .malformed ?_⟩
      intro dto spelled
      cases visited.symm.trans (fromValue_eq_ok.mpr spelled)
  | ok dto =>
      rw [visited] at skipped
      dsimp only at skipped ⊢
      cases built : dto.toNode with
      | ok accepted =>
          rw [built] at skipped
          cases skipped
      | error error =>
          rw [built] at skipped
          cases skipped
          exact ⟨rfl, rfl, .invalid (fromValue_eq_ok.mp visited) (firstFailure_of_toNode built)⟩

/-!
## Accounting
-/

/-- The records that no warning is about. -/
def unwarned (index : Nat) (records : List Value) (warnings : List Warning) : List Value :=
  ((records.zipIdx index).filter fun entry => entry.2 ∉ warnings.map Warning.index).map Prod.fst

/-- From position `index` on, every record has either its node or its warning,
in order. -/
structure Accounted (index : Nat) (records : List Value) (nodes : List Node)
    (warnings : List Warning) : Prop where
  counts : nodes.length + warnings.length = records.length
  ordered : warnings.Pairwise fun earlier later => earlier.index < later.index
  explained : ∀ warning ∈ warnings, index ≤ warning.index ∧
    ∃ record, records[warning.index - index]? = some record ∧ Explains record warning
  kept : List.Forall₂ Spelled (unwarned index records warnings) nodes

variable {index : Nat} {record : Value} {records : List Value} {node : Node} {nodes : List Node}
  {warning : Warning} {warnings : List Warning}

theorem Accounted.nil : Accounted index [] [] [] where
  counts := rfl
  ordered := .nil
  explained := by simp
  kept := .nil

theorem Accounted.explained_cons (record : Value)
    (rest : Accounted (index + 1) records nodes warnings) (member : warning ∈ warnings) :
    index < warning.index ∧
      ∃ found, (record :: records)[warning.index - index]? = some found ∧
        Explains found warning := by
  obtain ⟨after, found, position, explained⟩ := rest.explained warning member
  refine ⟨after, found, ?_, explained⟩
  have next : warning.index - index = warning.index - (index + 1) + 1 := by omega
  rw [next, List.getElem?_cons_succ]
  exact position

theorem Accounted.keep (rest : Accounted (index + 1) records nodes warnings)
    (spelled : Spelled record node) :
    Accounted index (record :: records) (node :: nodes) warnings where
  counts := by
    have counts := rest.counts
    simp only [List.length_cons]
    omega
  ordered := rest.ordered
  explained := fun warning member =>
    ⟨Nat.le_of_lt (rest.explained_cons record member).1, (rest.explained_cons record member).2⟩
  kept := by
    have own : index ∉ warnings.map Warning.index := by
      intro member
      obtain ⟨warning, among, same⟩ := List.mem_map.mp member
      exact absurd (rest.explained warning among).1 (by omega)
    have split : unwarned index (record :: records) warnings =
        record :: unwarned (index + 1) records warnings := by
      rw [unwarned, List.zipIdx_cons, List.filter_cons_of_pos (by simpa using own)]
      rfl
    rw [split]
    exact .cons spelled rest.kept

theorem Accounted.skip (rest : Accounted (index + 1) records nodes warnings)
    (own : warning.index = index) (explains : Explains record warning) :
    Accounted index (record :: records) nodes (warning :: warnings) where
  counts := by
    have counts := rest.counts
    simp only [List.length_cons]
    omega
  ordered := by
    refine List.pairwise_cons.mpr ⟨?_, rest.ordered⟩
    intro later member
    have after := (rest.explained later member).1
    omega
  explained := by
    intro other member
    rcases List.mem_cons.mp member with same | later
    · rw [same, own, Nat.sub_self]
      exact ⟨Nat.le_refl _, record, rfl, explains⟩
    · exact ⟨Nat.le_of_lt (rest.explained_cons record later).1,
        (rest.explained_cons record later).2⟩
  kept := by
    have split : unwarned index (record :: records) (warning :: warnings) =
        unwarned (index + 1) records warnings := by
      simp only [unwarned, List.zipIdx_cons, List.map_cons, own]
      rw [List.filter_cons_of_neg (by simp)]
      congr 1
      apply List.filter_congr
      intro entry member
      have after := List.le_snd_of_mem_zipIdx member
      have foreign : entry.2 ≠ index := by omega
      simp [foreign]
    rw [split]
    exact rest.kept

theorem parseRecordsFrom_accounted (index : Nat) (records : List Value) :
    (parseRecordsFrom index records).1 = parseRecords records ∧
      Accounted index records (parseRecordsFrom index records).1
        (parseRecordsFrom index records).2 := by
  induction records generalizing index with
  | nil => exact ⟨rfl, .nil⟩
  | cons record records ih =>
      obtain ⟨same, rest⟩ := ih (index + 1)
      simp only [parseRecordsFrom]
      cases read : readRecord index record with
      | ok node =>
          obtain ⟨parsed, spelled⟩ := readRecord_ok read
          refine ⟨?_, rest.keep spelled⟩
          rw [parseRecords, List.filterMap_cons_some parsed, same]
          rfl
      | error warning =>
          obtain ⟨skipped, own, explains⟩ := readRecord_error read
          refine ⟨?_, rest.skip own explains⟩
          rw [parseRecords, List.filterMap_cons_none skipped, same]
          rfl

/-- A failed fetch logs nothing. A successful one returns the nodes of
`fetch_nodes` and leaves one warning for each element of the body that is not
among them, with its index and the first check that it fails; its last line
counts both. -/
theorem fetch_accounts_for_records (decode : List UInt8 → Except String (List Value))
    (sent : Except String HttpResponse) :
    match fetchNodesLogged decode sent with
    | (.error error, log) => fetchNodes decode sent = .error error ∧ log = []
    | (.ok nodes, log) =>
        fetchNodes decode sent = .ok nodes ∧ ∃ response body records warnings,
          sent = .ok response ∧ response.body = .ok body ∧ decode body = .ok records ∧
          Accounted 0 records nodes warnings ∧
          log = warnings.map .warn ++
            [.debug records.length nodes.length warnings.length] := by
  unfold fetchNodesLogged fetchNodes
  cases sent with
  | error cause => exact ⟨rfl, rfl⟩
  | ok response =>
      by_cases success : response.isSuccess = true
      · simp only [success, if_true]
        cases arrived : response.body with
        | error cause => exact ⟨by simp [Except.mapError, success, arrived, bind, Except.bind], rfl⟩
        | ok body =>
            cases decoded : decode body with
            | error cause =>
                simp only [decoded]
                exact ⟨by simp [Except.mapError, success, arrived, decoded, bind, Except.bind],
                  trivial⟩
            | ok records =>
                obtain ⟨same, accounted⟩ := parseRecordsFrom_accounted 0 records
                have skipped : records.length - (parseRecordsFrom 0 records).1.length =
                    (parseRecordsFrom 0 records).2.length := by
                  have counts := accounted.counts
                  omega
                simp only [decoded, skipped]
                refine ⟨?_, response, body, records, _, rfl, arrived, decoded, accounted, rfl⟩
                simp [Except.mapError, success, arrived, decoded, bind, Except.bind, same, pure,
                  Except.pure]
      · simp only [success]
        exact ⟨by simp [Except.mapError, success, bind, Except.bind], rfl⟩

end BipaNodes.Source
