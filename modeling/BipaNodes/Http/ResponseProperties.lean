import BipaNodes.Domain.TimestampProperties
import BipaNodes.Http.Response

/-!
# First-seen texts of the API

What a client reads from the instants of a response.
-/

set_option autoImplicit false

namespace BipaNodes.Http

open Domain
open Gregorian

/-- Every text of a year with four digits is read back exactly, and no two
accepted values share a text. -/
theorem first_seen_exact_iff {secs : Int64} {node : Node}
    (accepted : timestampFromUnix secs = .ok node.firstSeen) :
    ((NodeResponse.ofNode node).firstSeen.length = 20 ∧
        readDateTime (NodeResponse.ofNode node).firstSeen = some secs.toInt ↔
      -62167219200 ≤ secs.toInt ∧ secs.toInt ≤ 253402300799) ∧
      ∀ (other : Int64) (otherNode : Node), timestampFromUnix other = .ok otherNode.firstSeen →
        secs ≠ other →
          (NodeResponse.ofNode node).firstSeen ≠ (NodeResponse.ofNode otherNode).firstSeen := by
  obtain ⟨sameSecs, wholeSecond⟩ := timestampFromUnix_ok_iff.mp accepted
  constructor
  · have startYear : daysToYear 0 = -719528 := by decide
    have endYear : daysToYear 10000 = 2932897 := by decide
    rw [← sameSecs]
    change (formatTimestamp node.firstSeen).length = 20 ∧
      readDateTime (formatTimestamp node.firstSeen) = _ ↔ _
    constructor
    · intro exact
      obtain ⟨_, year, month, day, hour, minute, second, yearLe, date, hourLt, minuteLt, secondLt,
        value⟩ := readDateTime_eq_some exact.2
      obtain ⟨lower, upper⟩ := daysFromEpoch_bounds date
      have fromStart : daysToYear 0 ≤ daysToYear year := daysToYear_mono (by omega)
      have toEnd : daysToYear (year + 1) ≤ daysToYear 10000 := daysToYear_mono (by omega)
      omega
    · intro range
      have read := readDateTime_formatTimestamp wholeSecond (by omega) (by omega)
      exact ⟨(readDateTime_eq_some read).1, read⟩
  · intro other otherNode otherAccepted distinct same
    obtain ⟨otherSecs, otherWhole⟩ := timestampFromUnix_ok_iff.mp otherAccepted
    change formatTimestamp node.firstSeen = formatTimestamp otherNode.firstSeen at same
    have sameInstant := formatTimestamp_injective wholeSecond otherWhole same
    rw [sameInstant, otherSecs] at sameSecs
    exact distinct (Int64.toInt_inj.mp sameSecs.symm)

theorem first_seen_exact_sample :
    ((NodeResponse.ofNode (sampleNode "02ab")).firstSeen.length = 20 ∧
        readDateTime (NodeResponse.ofNode (sampleNode "02ab")).firstSeen =
          some 1522941222) ∧
      (NodeResponse.ofNode (sampleNode "02ab")).firstSeen ≠
        (NodeResponse.ofNode
          { sampleNode "02ab" with
            firstSeen := ⟨-1, 0, by decide, by decide, by decide⟩ }).firstSeen :=
  have accepted : timestampFromUnix 1522941222 = .ok (sampleNode "02ab").firstSeen := rfl
  ⟨(first_seen_exact_iff accepted).1.mpr (by decide),
    (first_seen_exact_iff accepted).2 (-1) _ rfl (by decide)⟩

/-- The first second after year 9999. -/
theorem first_seen_year_10000 :
    ∃ instant : DateTime, timestampFromUnix 253402300800 = .ok instant ∧
      ∀ node : Node, node.firstSeen = instant →
        (NodeResponse.ofNode node).firstSeen = "+10000-01-01T00:00:00Z" ∧
          ¬((NodeResponse.ofNode node).firstSeen.length = 20 ∧
            readDateTime (NodeResponse.ofNode node).firstSeen = some 253402300800) := by
  refine ⟨⟨253402300800, 0, by decide, by decide, by decide⟩, rfl, ?_⟩
  intro node shown
  have text : formatTimestamp node.firstSeen = "+10000-01-01T00:00:00Z" := by
    rw [shown]
    decide
  refine ⟨text, fun exact => absurd exact.1 ?_⟩
  change ¬(formatTimestamp node.firstSeen).length = 20
  rw [text]
  decide

end BipaNodes.Http
