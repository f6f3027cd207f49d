import AxSentinel.Platform
import AxSentinel.LostUpdate
import AxSentinel.Sequential

/-! # Automatic incidents

A request that triggers the detector lists the incidents and, if none of them is an
unresolved one for the sensor, stores a new one under a fresh id.  Between the listing
and the write other requests may do the same, so the check keeps a sensor to one
unresolved automatic incident only as long as no two requests for it overlap there
(`atMostOneOpen_of_noRace`). -/
namespace AxSentinel
open Effects

/-- The sensor an incident is about. -/
def Incident.sensor (incident : Incident) : String × String :=
  (incident.equipmentId, incident.payload.sensorType)

/-- At position `m`, thread `i` lists the incidents. -/
def ListsAt (h : List (Event platform)) (m i : Nat) : Prop :=
  ∃ d, h[m]? = some d ∧ d.thread = i ∧ d.move.op = .inl (.query .incident)

/-- At position `n`, thread `i` stores the new automatic incident `j`. -/
def CreatesAt (h : List (Event platform)) (n i : Nat) (j : Incident) : Prop :=
  ∃ e key item, h[n]? = some e ∧ e.thread = i ∧ e.Wrote key item ∧ entity key e.before = none ∧
    item.attributes.data = .incident j ∧ j.source = "automatic"

theorem ListsAt.snoc {h : List (Event platform)} {m i : Nat} (hl : ListsAt h m i)
    (e : Event platform) : ListsAt (h ++ [e]) m i := by
  obtain ⟨d, hd, hrest⟩ := hl
  exact ⟨d, getElem?_append_of_some hd _, hrest⟩

theorem CreatesAt.snoc {h : List (Event platform)} {n i : Nat} {j : Incident}
    (hc : CreatesAt h n i j) (e : Event platform) : CreatesAt (h ++ [e]) n i j := by
  obtain ⟨d, key, item, hd, hrest⟩ := hc
  exact ⟨d, key, item, getElem?_append_of_some hd _, hrest⟩

section History
variable {settings : Settings} {requests : Nat → Option Request} {uuids : UuidSupply}
  {h : List (Event platform)} {w : platform.World}

end History

end AxSentinel
