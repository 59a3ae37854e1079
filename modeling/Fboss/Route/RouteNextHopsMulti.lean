import Fboss.Lib.FlatMap
import Fboss.Lib.Run
import Fboss.Route.Types

/-!
# The entries of a route, by client

`RouteNextHopsMulti` (`rib/RouteNextHopsMulti.cpp`, and the same text in
`state/RouteNextHopsMulti.cpp`) maps every client that announced a route to
its `RouteNextHopEntry`, in a `flat_map` ordered by client id, and caches in
`lowestAdminDistanceClientId_` the client whose entry has the lowest admin
distance. `getBestEntry` returns that client and its entry.

`update` compares the new entry with the cached client's entry only, and
`delEntryForClient` rescans the map when it removes the cached client. What
holds over every run is that the cache names a client of the map whenever the
map is not empty, so that `getBestEntry` never throws on a non-empty map
(`cacheInMap_run`). The cached entry is one of lowest admin distance after
every run in which no update raises the distance of the cached client itself
(`bestIsLowest_run`). An update that does raise it while another client has a
lower distance leaves the cache on a worse entry (`update_breaks_bestIsLowest`):
nothing rescans the map.

The default constructor leaves `lowestAdminDistanceClientId_` uninitialised,
so runs start from an empty map and any value of it.
-/

namespace Fboss

/-- The map from client to entry, and the cached client. -/
structure RouteNextHopsMulti where
  map : FlatMap ClientID RouteNextHopEntry
  lowestAdminDistanceClientId : ClientID

namespace RouteNextHopsMulti

open Run

/-- A map with no entry, the cached client being whatever the field holds. -/
def empty (lowestAdminDistanceClientId : ClientID) : RouteNextHopsMulti :=
  ⟨FlatMap.empty, lowestAdminDistanceClientId⟩

def getEntryForClient (s : RouteNextHopsMulti) (clientId : ClientID) : Option RouteNextHopEntry :=
  s.map.find? clientId

@[simp] theorem getEntryForClient_eq (s : RouteNextHopsMulti) (clientId : ClientID) :
    s.getEntryForClient clientId = s.map.find? clientId := rfl

def isEmpty (s : RouteNextHopsMulti) : Bool :=
  s.map.size == 0

/-- One turn of the loop of `findLowestAdminDistance`: move to `it` if its
distance is lower, or if it is the same and its client id is lower. -/
def lowestStep (lowest it : ClientID × RouteNextHopEntry) : ClientID × RouteNextHopEntry :=
  if it.2.getAdminDistance < lowest.2.getAdminDistance then it
  else if it.2.isSame lowest.2 ∧ it.1 < lowest.1 then it
  else lowest

/-- `findLowestAdminDistance`, which reads the map only: the loop from
`begin()` over the whole map, and `ClientID(-1)` for an empty map. -/
def findLowestAdminDistance (map : FlatMap ClientID RouteNextHopEntry) : ClientID :=
  match map.toList with
  | [] => -1
  | first :: rest => ((first :: rest).foldl lowestStep first).1

/-- The first half of `update`: `map_.find`, then `map_.insert` of a new
client or an assignment through the iterator. -/
def updateMap (s : RouteNextHopsMulti) (clientId : ClientID) (nhe : RouteNextHopEntry) :
    FlatMap ClientID RouteNextHopEntry :=
  match s.map.find? clientId with
  | none => s.map.insert clientId nhe
  | some _ => s.map.assign clientId nhe

/-- `update(clientId, nhe)`: the map is updated, then the cache compared with
the new entry, or looked for again if the cached client has no entry. -/
def update (s : RouteNextHopsMulti) (clientId : ClientID) (nhe : RouteNextHopEntry) :
    RouteNextHopsMulti :=
  if (s.updateMap clientId nhe).size = 1 then ⟨s.updateMap clientId nhe, clientId⟩
  else
    match (s.updateMap clientId nhe).find? s.lowestAdminDistanceClientId with
    | none => ⟨s.updateMap clientId nhe, findLowestAdminDistance (s.updateMap clientId nhe)⟩
    | some entry =>
      if nhe.getAdminDistance < entry.getAdminDistance then
        ⟨s.updateMap clientId nhe, clientId⟩
      else ⟨s.updateMap clientId nhe, s.lowestAdminDistanceClientId⟩

/-- `delEntryForClient(clientId)`: the map is rescanned when the cached
client goes. -/
def delEntryForClient (s : RouteNextHopsMulti) (clientId : ClientID) : RouteNextHopsMulti :=
  if s.lowestAdminDistanceClientId = clientId then
    ⟨s.map.erase clientId, findLowestAdminDistance (s.map.erase clientId)⟩
  else ⟨s.map.erase clientId, s.lowestAdminDistanceClientId⟩

/-- `clear()`: empties the map and leaves the cached client. -/
def clear (s : RouteNextHopsMulti) : RouteNextHopsMulti :=
  { s with map := FlatMap.empty }

/-- `getBestEntry()`, which throws on a cached client without an entry. -/
def getBestEntry (s : RouteNextHopsMulti) : Except String (ClientID × RouteNextHopEntry) :=
  match s.getEntryForClient s.lowestAdminDistanceClientId with
  | some entry => .ok (s.lowestAdminDistanceClientId, entry)
  | none => .error "Unexpected empty RouteNextHopsMulti"

/-- The calls that change a `RouteNextHopsMulti`. -/
inductive Op where
  | update (clientId : ClientID) (nhe : RouteNextHopEntry)
  | delEntryForClient (clientId : ClientID)
  | clear
  deriving DecidableEq

def applyOp (s : RouteNextHopsMulti) : Op → RouteNextHopsMulti
  | .update clientId nhe => s.update clientId nhe
  | .delEntryForClient clientId => s.delEntryForClient clientId
  | .clear => s.clear

/-! ### The loop of `findLowestAdminDistance` -/

/-- The fold keeps an element of lowest admin distance among those it has
seen, and that element is the start or one of the list. -/
theorem foldl_lowestStep_spec (l : List (ClientID × RouteNextHopEntry))
    (init : ClientID × RouteNextHopEntry) :
    (l.foldl lowestStep init = init ∨ l.foldl lowestStep init ∈ l) ∧
      (l.foldl lowestStep init).2.getAdminDistance ≤ init.2.getAdminDistance ∧
      ∀ x ∈ l, (l.foldl lowestStep init).2.getAdminDistance ≤ x.2.getAdminDistance := by
  induction l generalizing init with
  | nil => simp
  | cons x l ih =>
    obtain ⟨hmem, hinit, hall⟩ := ih (lowestStep init x)
    -- one step lowers the distance or keeps it, and picks `init` or `x`
    have hstep : (lowestStep init x = init ∨ lowestStep init x = x) ∧
        (lowestStep init x).2.getAdminDistance ≤ init.2.getAdminDistance ∧
        (lowestStep init x).2.getAdminDistance ≤ x.2.getAdminDistance := by
      unfold lowestStep RouteNextHopEntry.isSame
      split_ifs with hlt hsame
      · exact ⟨Or.inr rfl, le_of_lt hlt, le_rfl⟩
      · exact ⟨Or.inr rfl, by simp_all, le_rfl⟩
      · exact ⟨Or.inl rfl, le_rfl, not_lt.mp hlt⟩
    simp only [List.foldl_cons, List.mem_cons]
    refine ⟨?_, hinit.trans hstep.2.1, ?_⟩
    · rcases hmem with h | h
      · rcases hstep.1 with h' | h'
        · exact Or.inl (h.trans h')
        · exact Or.inr (Or.inl (h.trans h'))
      · exact Or.inr (Or.inr h)
    · rintro y (rfl | hy)
      · exact hinit.trans hstep.2.2
      · exact hall y hy

/-- On a non-empty map, `findLowestAdminDistance` names a client whose entry
has the lowest admin distance. -/
theorem findLowestAdminDistance_spec (m : FlatMap ClientID RouteNextHopEntry) (h : m.size ≠ 0) :
    ∃ b, m.find? (findLowestAdminDistance m) = some b ∧
      ∀ c e, m.find? c = some e → b.getAdminDistance ≤ e.getAdminDistance := by
  obtain ⟨l, hl⟩ := m
  unfold findLowestAdminDistance
  cases l with
  | nil => exact absurd rfl h
  | cons first rest =>
    obtain ⟨hmem, -, hall⟩ := foldl_lowestStep_spec (first :: rest) first
    set r := (first :: rest).foldl lowestStep first
    have hr : r ∈ first :: rest := hmem.elim (fun h => h ▸ List.mem_cons_self) id
    refine ⟨r.2, (FlatMap.mem_toList_iff ⟨first :: rest, hl⟩ r.1 r.2).mp hr, fun c e he => ?_⟩
    exact hall (c, e) ((FlatMap.mem_toList_iff ⟨first :: rest, hl⟩ c e).mpr he)

/-! ### What `update` and `delEntryForClient` do -/

/-- After `update`, `clientId` is bound to the new entry and every other client
is unchanged. -/
theorem find?_updateMap (s : RouteNextHopsMulti) (clientId : ClientID) (nhe : RouteNextHopEntry)
    (c : ClientID) :
    (s.updateMap clientId nhe).find? c = if c = clientId then some nhe else s.getEntryForClient c := by
  unfold updateMap getEntryForClient
  cases hfind : s.map.find? clientId with
  | none => simp [FlatMap.find?_insert, hfind]
  | some old => simp [FlatMap.find?_assign, hfind]

@[simp] theorem update_map (s : RouteNextHopsMulti) (clientId : ClientID) (nhe : RouteNextHopEntry) :
    (s.update clientId nhe).map = s.updateMap clientId nhe := by
  unfold update
  split_ifs
  · rfl
  · split
    · rfl
    · split_ifs <;> rfl

/-- The cached client after `update`, by the branch `update` takes. -/
theorem update_lowest_cases (s : RouteNextHopsMulti) (clientId : ClientID) (nhe : RouteNextHopEntry) :
    ((s.updateMap clientId nhe).size = 1 ∧ (s.update clientId nhe).lowestAdminDistanceClientId = clientId) ∨
    ((s.updateMap clientId nhe).find? s.lowestAdminDistanceClientId = none ∧
      (s.update clientId nhe).lowestAdminDistanceClientId =
        findLowestAdminDistance (s.updateMap clientId nhe)) ∨
    (∃ entry, (s.updateMap clientId nhe).size ≠ 1 ∧
      (s.updateMap clientId nhe).find? s.lowestAdminDistanceClientId = some entry ∧
      ((nhe.getAdminDistance < entry.getAdminDistance ∧
          (s.update clientId nhe).lowestAdminDistanceClientId = clientId) ∨
        (¬ nhe.getAdminDistance < entry.getAdminDistance ∧
          (s.update clientId nhe).lowestAdminDistanceClientId = s.lowestAdminDistanceClientId))) := by
  unfold update
  split_ifs with hsize
  · exact Or.inl ⟨hsize, rfl⟩
  · split
    · next hnone => exact Or.inr (Or.inl ⟨hnone, rfl⟩)
    · next entry hentry =>
      refine Or.inr (Or.inr ⟨entry, hsize, hentry, ?_⟩)
      split_ifs with hlt
      · exact Or.inl ⟨hlt, rfl⟩
      · exact Or.inr ⟨hlt, rfl⟩

@[simp] theorem delEntryForClient_map (s : RouteNextHopsMulti) (clientId : ClientID) :
    (s.delEntryForClient clientId).map = s.map.erase clientId := by
  unfold delEntryForClient
  split_ifs <;> rfl

theorem delEntryForClient_lowest_cases (s : RouteNextHopsMulti) (clientId : ClientID) :
    (s.lowestAdminDistanceClientId = clientId ∧ (s.delEntryForClient clientId).lowestAdminDistanceClientId =
        findLowestAdminDistance (s.map.erase clientId)) ∨
    (s.lowestAdminDistanceClientId ≠ clientId ∧
      (s.delEntryForClient clientId).lowestAdminDistanceClientId = s.lowestAdminDistanceClientId) := by
  unfold delEntryForClient
  split_ifs with hlow
  · exact Or.inl ⟨hlow, rfl⟩
  · exact Or.inr ⟨hlow, rfl⟩

theorem size_ne_zero_of_find? {m : FlatMap ClientID RouteNextHopEntry} {c : ClientID}
    {e : RouteNextHopEntry} (h : m.find? c = some e) : m.size ≠ 0 := by
  intro h0
  rw [(FlatMap.size_eq_zero_iff m).mp h0 c] at h
  exact absurd h (by simp)

/-! ### The cached client is a client of the map -/

/-- The cached client has an entry whenever the map is not empty. -/
def CacheInMap (s : RouteNextHopsMulti) : Prop :=
  s.map.size ≠ 0 → (s.getEntryForClient s.lowestAdminDistanceClientId).isSome

theorem getBestEntry_eq_ok_iff (s : RouteNextHopsMulti) (c : ClientID) (b : RouteNextHopEntry) :
    s.getBestEntry = .ok (c, b) ↔
      c = s.lowestAdminDistanceClientId ∧ s.getEntryForClient s.lowestAdminDistanceClientId = some b := by
  unfold getBestEntry
  cases h : s.getEntryForClient s.lowestAdminDistanceClientId with
  | none => simp_all
  | some entry =>
    simp only [Except.ok.injEq, Prod.mk.injEq, Option.some.injEq]
    simp_all [eq_comm]

/-- `update` leaves the cache in the map, from any state. -/
theorem cacheInMap_update (s : RouteNextHopsMulti) (clientId : ClientID) (nhe : RouteNextHopEntry) :
    CacheInMap (s.update clientId nhe) := by
  intro _
  have hmap := find?_updateMap s clientId nhe
  simp only [getEntryForClient, update_map]
  rcases update_lowest_cases s clientId nhe with ⟨-, hlow⟩ | ⟨-, hlow⟩ | ⟨entry, -, hentry, ⟨-, hlow⟩ | ⟨-, hlow⟩⟩
  · simp [hlow, hmap]
  · obtain ⟨b, hb, -⟩ := findLowestAdminDistance_spec (s.updateMap clientId nhe)
      (size_ne_zero_of_find? (c := clientId) (e := nhe) (by simp [hmap]))
    simp [hlow, hb]
  · simp [hlow, hmap]
  · simp [hlow, hentry]

theorem cacheInMap_delEntryForClient {s : RouteNextHopsMulti} (hs : CacheInMap s)
    (clientId : ClientID) : CacheInMap (s.delEntryForClient clientId) := by
  intro hsize
  simp only [delEntryForClient_map] at hsize
  simp only [getEntryForClient, delEntryForClient_map]
  rcases delEntryForClient_lowest_cases s clientId with ⟨-, hlow⟩ | ⟨hne, hlow⟩
  · obtain ⟨b, hb, -⟩ := findLowestAdminDistance_spec _ hsize
    simp [hlow, hb]
  · -- the cached client is not the erased one, so its entry is still there
    have hsize' : s.map.size ≠ 0 := by
      intro h0
      apply hsize
      refine (FlatMap.size_eq_zero_iff _).mpr fun k => ?_
      rw [FlatMap.find?_erase, (FlatMap.size_eq_zero_iff s.map).mp h0 k]
      simp
    simpa [FlatMap.find?_erase, hlow, hne] using hs hsize'

theorem cacheInMap_applyOp {s : RouteNextHopsMulti} (hs : CacheInMap s) :
    ∀ op, CacheInMap (s.applyOp op)
  | .update clientId nhe => cacheInMap_update s clientId nhe
  | .delEntryForClient clientId => cacheInMap_delEntryForClient hs clientId
  | .clear => fun h => absurd rfl h

/-- Over every run from an empty map, `getBestEntry` answers whenever the map
is not empty: the cached client is a client of the map. -/
theorem cacheInMap_run (lowest : ClientID) (ops : List Op)
    (hsize : (run applyOp (empty lowest) ops).map.size ≠ 0) :
    ∃ c b, (run applyOp (empty lowest) ops).getBestEntry = .ok (c, b) := by
  have hinv : CacheInMap (run applyOp (empty lowest) ops) :=
    run_invariant (P := fun _ => True) CacheInMap (fun s op _ hs => cacheInMap_applyOp hs op)
      (fun _ _ => trivial) (fun h => absurd rfl h)
  obtain ⟨b, hb⟩ := Option.isSome_iff_exists.mp (hinv hsize)
  exact ⟨_, b, (getBestEntry_eq_ok_iff _ _ _).mpr ⟨rfl, hb⟩⟩

/-- One update from an empty map. -/
theorem cacheInMap_run_one_update :
    (run applyOp (empty 0) [.update 1 (.ofAction .DROP 10)]).map.size ≠ 0 ∧
      ∃ c b, (run applyOp (empty 0) [.update 1 (.ofAction .DROP 10)]).getBestEntry = .ok (c, b) :=
  ⟨by decide, cacheInMap_run 0 _ (by decide)⟩

/-! ### The cached entry has the lowest admin distance -/

/-- The property `getBestEntry` is meant to have: the cached client's entry has
an admin distance no higher than any entry of the map. -/
def BestIsLowest (s : RouteNextHopsMulti) : Prop :=
  ∀ c e, s.getEntryForClient c = some e →
    ∃ b, s.getEntryForClient s.lowestAdminDistanceClientId = some b ∧
      b.getAdminDistance ≤ e.getAdminDistance

/-- An update that raises the admin distance of the cached client. -/
def RaisesBest (s : RouteNextHopsMulti) (clientId : ClientID) (nhe : RouteNextHopEntry) : Prop :=
  clientId = s.lowestAdminDistanceClientId ∧
    ∃ old, s.getEntryForClient clientId = some old ∧ old.getAdminDistance < nhe.getAdminDistance

instance (s : RouteNextHopsMulti) (clientId : ClientID) (nhe : RouteNextHopEntry) :
    Decidable (RaisesBest s clientId nhe) := by
  unfold RaisesBest
  cases s.getEntryForClient clientId <;> infer_instance

theorem bestIsLowest_delEntryForClient {s : RouteNextHopsMulti} (hs : BestIsLowest s)
    (clientId : ClientID) : BestIsLowest (s.delEntryForClient clientId) := by
  intro c e he
  simp only [getEntryForClient, delEntryForClient_map] at he ⊢
  rcases delEntryForClient_lowest_cases s clientId with ⟨-, hlow⟩ | ⟨hne, hlow⟩
  · obtain ⟨b, hb, hle⟩ := findLowestAdminDistance_spec _ (size_ne_zero_of_find? he)
    exact ⟨b, hlow ▸ hb, hle c e he⟩
  · -- the erased map has fewer entries, and the cached client keeps its entry
    have he' : s.getEntryForClient c = some e := by
      rw [FlatMap.find?_erase] at he
      split_ifs at he
      exact he
    obtain ⟨b, hb, hle⟩ := hs c e he'
    exact ⟨b, by simpa [FlatMap.find?_erase, hlow, hne] using hb, hle⟩

/-- An update keeps the cache right unless it raises the distance of the cached
client. -/
theorem bestIsLowest_update {s : RouteNextHopsMulti} (hs : BestIsLowest s)
    (clientId : ClientID) (nhe : RouteNextHopEntry) (hraise : ¬ RaisesBest s clientId nhe) :
    BestIsLowest (s.update clientId nhe) := by
  have hmap := find?_updateMap s clientId nhe
  intro c e he
  simp only [getEntryForClient, update_map] at he ⊢
  rw [hmap] at he
  -- every entry after the update is the new one or an entry of `s`
  have hentries : (c = clientId ∧ e = nhe) ∨ (c ≠ clientId ∧ s.getEntryForClient c = some e) := by
    by_cases hc : c = clientId <;> simp_all
  rcases update_lowest_cases s clientId nhe with ⟨hsize, hlow⟩ | ⟨-, hlow⟩ |
      ⟨entry, -, hentry, ⟨hlt, hlow⟩ | ⟨hlt, hlow⟩⟩
  · -- a single entry: it is the updated client's
    have hc : c = clientId :=
      FlatMap.eq_of_size_eq_one hsize (k := clientId) (v := nhe) (by simp [hmap])
        (by rw [hmap]; exact he)
    subst hc
    refine ⟨nhe, by simp [hlow, hmap], ?_⟩
    rcases hentries with ⟨-, rfl⟩ | ⟨hne, -⟩
    · exact le_rfl
    · exact absurd rfl hne
  · obtain ⟨b, hb, hle⟩ := findLowestAdminDistance_spec _
      (size_ne_zero_of_find? (c := c) (e := e) (by rw [hmap]; exact he))
    exact ⟨b, hlow ▸ hb, hle c e (by rw [hmap]; exact he)⟩
  · -- the new entry is below the cached one, which is below every old entry
    refine ⟨nhe, by simp [hlow, hmap], ?_⟩
    rcases hentries with ⟨-, rfl⟩ | ⟨-, hold⟩
    · exact le_rfl
    · obtain ⟨b, hb, hle⟩ := hs c e hold
      rw [hmap] at hentry
      by_cases hlow' : s.lowestAdminDistanceClientId = clientId
      · rw [if_pos hlow'] at hentry
        cases hentry
        exact absurd hlt (lt_irrefl _)
      · rw [if_neg hlow', hb] at hentry
        cases hentry
        exact le_of_lt (lt_of_lt_of_le hlt hle)
  · refine ⟨entry, hlow ▸ hentry, ?_⟩
    rcases hentries with ⟨-, rfl⟩ | ⟨-, hold⟩
    · exact not_lt.mp hlt
    · obtain ⟨b, hb, hle⟩ := hs c e hold
      rw [hmap] at hentry
      by_cases hlow' : s.lowestAdminDistanceClientId = clientId
      · -- the cached client was updated without a raise of its distance
        rw [if_pos hlow'] at hentry
        cases hentry
        have hnot : ¬ b.getAdminDistance < nhe.getAdminDistance :=
          fun h => hraise ⟨hlow'.symm, b, hlow' ▸ hb, h⟩
        exact (not_lt.mp hnot).trans hle
      · rw [if_neg hlow', hb] at hentry
        cases hentry
        exact hle

/-- The update the cache does not survive: the cached client gets a distance
above another client's, and the cache stays on it. -/
theorem update_breaks_bestIsLowest (s : RouteNextHopsMulti) (nhe : RouteNextHopEntry)
    (c : ClientID) (e : RouteNextHopEntry) (hc : c ≠ s.lowestAdminDistanceClientId)
    (he : s.getEntryForClient c = some e) (hlt : e.getAdminDistance < nhe.getAdminDistance) :
    ¬ BestIsLowest (s.update s.lowestAdminDistanceClientId nhe) := by
  have hmap := find?_updateMap s s.lowestAdminDistanceClientId nhe
  -- the map now binds two clients, so `update` reads the cached entry
  have hsize : (s.updateMap s.lowestAdminDistanceClientId nhe).size ≠ 1 := fun h1 =>
    hc (FlatMap.eq_of_size_eq_one h1 (k := s.lowestAdminDistanceClientId) (v := nhe) (w := e)
      (by simp [hmap]) (by simpa [hmap, hc] using he))
  have hcached : (s.updateMap s.lowestAdminDistanceClientId nhe).find? s.lowestAdminDistanceClientId =
      some nhe := by simp [hmap]
  have hlow : (s.update s.lowestAdminDistanceClientId nhe).lowestAdminDistanceClientId =
      s.lowestAdminDistanceClientId := by
    rcases update_lowest_cases s s.lowestAdminDistanceClientId nhe with ⟨h1, -⟩ | ⟨hnone, -⟩ |
        ⟨entry, -, hentry, ⟨hlt', -⟩ | ⟨-, hlow⟩⟩
    · exact absurd h1 hsize
    · rw [hcached] at hnone; cases hnone
    · rw [hcached] at hentry; cases hentry; exact absurd hlt' (lt_irrefl _)
    · exact hlow
  intro hbest
  obtain ⟨b, hb, hle⟩ := hbest c e (by simpa [hmap, hc] using he)
  simp only [getEntryForClient, update_map, hlow, hcached, Option.some.injEq] at hb
  subst hb
  exact absurd hlt (not_lt.mpr hle)

/-- Client 1 at distance 10 and client 2 at 20; client 1 raises its own to 30. -/
theorem update_breaks_bestIsLowest_two_clients :
    let s := run applyOp (empty 0) [.update 1 (.ofAction .DROP 10), .update 2 (.ofAction .DROP 20)]
    2 ≠ s.lowestAdminDistanceClientId ∧ s.getEntryForClient 2 = some (.ofAction .DROP 20) ∧
      (RouteNextHopEntry.ofAction .DROP 20).getAdminDistance < (RouteNextHopEntry.ofAction .DROP 30).getAdminDistance ∧
      ¬ BestIsLowest (s.update s.lowestAdminDistanceClientId (.ofAction .DROP 30)) :=
  ⟨by decide, by decide, by decide, update_breaks_bestIsLowest _ _ 2 (.ofAction .DROP 20) (by decide) (by decide) (by decide)⟩

theorem bestIsLowest_applyOp {s : RouteNextHopsMulti} (hs : BestIsLowest s) :
    ∀ op, (∀ clientId nhe, op = .update clientId nhe → ¬ RaisesBest s clientId nhe) →
      BestIsLowest (s.applyOp op)
  | .update clientId nhe, hop => bestIsLowest_update hs clientId nhe (hop clientId nhe rfl)
  | .delEntryForClient clientId, _ => bestIsLowest_delEntryForClient hs clientId
  | .clear, _ => fun c e he => absurd he (by simp [applyOp, clear, getEntryForClient])

/-- With the cache right, a client whose entry has a lower admin distance than
every other client's is the one `getBestEntry` returns. -/
theorem getBestEntry_of_bestIsLowest {s : RouteNextHopsMulti} (hs : BestIsLowest s) {c : ClientID}
    {e : RouteNextHopEntry} (hc : s.getEntryForClient c = some e)
    (hlow : ∀ c' e', s.getEntryForClient c' = some e' → c' ≠ c → e.getAdminDistance < e'.getAdminDistance) :
    s.getBestEntry = .ok (c, e) := by
  obtain ⟨b, hb, hle⟩ := hs c e hc
  by_cases hcached : s.lowestAdminDistanceClientId = c
  · rw [hcached, hc] at hb
    cases hb
    exact (getBestEntry_eq_ok_iff s c e).mpr ⟨hcached.symm, hcached ▸ hc⟩
  · -- any other cached client has a higher distance than `c`
    exact absurd hle (not_le.mpr (hlow _ b hb hcached))

/-- An operation that does not raise the distance of the cached client. -/
def KeepsBest (s : RouteNextHopsMulti) : Op → Prop
  | .update clientId nhe => ¬ RaisesBest s clientId nhe
  | _ => True

instance (s : RouteNextHopsMulti) (op : Op) : Decidable (KeepsBest s op) := by
  cases op <;> unfold KeepsBest <;> infer_instance

/-- Over every run from an empty map in which no update raises the distance of
the cached client, `getBestEntry` returns an entry of lowest admin distance. -/
theorem bestIsLowest_run (lowest : ClientID) (ops : List Op)
    (hops : Guarded applyOp KeepsBest (empty lowest) ops) :
    BestIsLowest (run applyOp (empty lowest) ops) :=
  run_invariant_guarded BestIsLowest
    (fun s op hop hs => bestIsLowest_applyOp hs op fun clientId nhe h => by
      subst h; exact hop)
    hops (fun c e he => absurd he (by simp [empty, getEntryForClient]))

/-- Client 1 announces distance 10, then client 2 distance 20. -/
theorem bestIsLowest_run_two_clients :
    Guarded applyOp KeepsBest (empty 0) [.update 1 (.ofAction .DROP 10), .update 2 (.ofAction .DROP 20)] ∧
      BestIsLowest (run applyOp (empty 0) [.update 1 (.ofAction .DROP 10), .update 2 (.ofAction .DROP 20)]) :=
  ⟨by decide, bestIsLowest_run 0 _ (by decide)⟩

/-- The first update of an empty map caches its client, whatever the field
held before. -/
theorem update_empty (lowest clientId : ClientID) (nhe : RouteNextHopEntry) :
    (empty lowest).update clientId nhe = ⟨FlatMap.empty.insert clientId nhe, clientId⟩ := by
  rfl

/-- Client 1 announces an entry of admin distance 10 and client 2 one of 20;
client 1 then updates its entry to distance 30. `getBestEntry` still returns
client 1 and its entry of distance 30, while client 2's entry has distance 20. -/
theorem getBestEntry_after_raise (lowest : ClientID) :
    (run applyOp (empty lowest) [.update 1 (.ofAction .DROP 10), .update 2 (.ofAction .DROP 20),
        .update 1 (.ofAction .DROP 30)]).getBestEntry = .ok (1, .ofAction .DROP 30) ∧
    (run applyOp (empty lowest) [.update 1 (.ofAction .DROP 10), .update 2 (.ofAction .DROP 20),
        .update 1 (.ofAction .DROP 30)]).getEntryForClient 2 = some (.ofAction .DROP 20) := by
  rw [run_cons, applyOp, update_empty]
  decide

end RouteNextHopsMulti

end Fboss
