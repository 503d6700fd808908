import GgRelay.Store.Listing.Query

/-!
Clients that follow `next_cursor` through a listing while rows are inserted.

* `nodup_sessionKey`, `nodup_auditKey`: no two rows of a table have the same place in a listing;
* `listings_exact`: each of the three listings is paged through exactly.
-/

namespace GgRelay.Listing

open Keyset (Walk)

variable {σ κ : Type} [LinearOrder σ] [LinearOrder κ] {H : Host σ κ}

omit [LinearOrder σ] [LinearOrder κ] in
/-- `id` is the primary key. -/
lemma nodup_sessionKey {rows : List (StoredSession σ)} (h : (rows.map (·.id)).Nodup) :
    (rows.map (sessionKey H)).Nodup := by
  refine List.Nodup.of_map (fun k => (ofLex k).2) ?_
  rw [List.map_map]
  show (rows.map (H.collate ∘ (·.id))).Nodup
  rw [← List.map_map]
  exact h.map H.collate_injective

omit [LinearOrder σ] in
/-- `id` is the primary key. -/
lemma nodup_auditKey {rows : List (AuditRow σ)} (h : (rows.map (·.id)).Nodup) :
    (rows.map auditKey).Nodup := by
  refine List.Nodup.of_map (fun k => (ofLex k).2) ?_
  rw [List.map_map]
  exact h

/-- **Cursor pagination is exact**: in each of the three listings, under any filter and limit, on
any table and with inserts above the first row that was returned, no cursor is refused, the client
has at any moment the first rows of the listing, and after a bounded number of fetches it has each
row that matched once, in descending order. -/
theorem listings_exact (H : Host σ κ) {limit : ℕ} (hlimit : 0 < limit) :
    (∀ status tag w, (Walk.system (sessionKey H) (listSessions H status tag limit)).Reachable w →
      Walk.Exact (sessionKey H) (listSessions H status tag limit) (listWhere status tag) limit w) ∧
    (∀ f w, (Walk.system (sessionKey H) (searchSessions H f limit)).Reachable w →
      Walk.Exact (sessionKey H) (searchSessions H f limit) (searchWhere H f) limit w) ∧
    ∀ sessionId f w, (Walk.system auditKey (listAudit H sessionId f limit)).Reachable w →
      Walk.Exact auditKey (listAudit H sessionId f limit) (auditWhere (f.resolve sessionId)) limit w
    := by
  refine ⟨fun status tag w h => ?_, fun f w h => ?_, fun sessionId f w h => ?_⟩
  · exact Walk.exact_of_reachable hlimit (listSessions_page status tag limit) h
  · exact Walk.exact_of_reachable hlimit (searchSessions_page f limit) h
  · exact Walk.exact_of_reachable hlimit (listAudit_page sessionId f limit) h

/-- Three sessions, two of them submitted in the same second. -/
def threeSessions : List (StoredSession (Fin 60)) :=
  [⟨"a", ⟨5, by decide⟩, "queued", none, [], .mapping []⟩,
    ⟨"b", ⟨5, by decide⟩, "queued", none, [], .mapping []⟩,
    ⟨"c", ⟨4, by decide⟩, "failed", none, [], .mapping []⟩]

/-- A client that reads the queued ones of them, one by one, while a fourth arrives. -/
theorem threeSessions_exact :
    ∃ w, (Walk.system (sessionKey (Host.plain .sqlite))
        (listSessions (Host.plain .sqlite) (some "queued") none 1)).Reachable w ∧
      w.got.map (·.id) = ["b", "a"] ∧
      Walk.Exact (sessionKey (Host.plain .sqlite))
        (listSessions (Host.plain .sqlite) (some "queued") none 1) (listWhere (some "queued") none)
        1 w := by
  have hinit : Walk.init (sessionKey (Host.plain .sqlite))
      (⟨threeSessions, [], .start, [], 0⟩ : Walk (StoredSession (Fin 60)) Cursor ListingError) :=
    ⟨nodup_sessionKey (by decide), rfl, rfl, rfl, rfl⟩
  obtain ⟨w, hw, hgot⟩ : ∃ w, (Walk.system (sessionKey (Host.plain .sqlite))
      (listSessions (Host.plain .sqlite) (some "queued") none 1)).run
        ⟨threeSessions, [], .start, [], 0⟩
        [.fetch, .insert ⟨"d", 6, "queued", none, [], .mapping []⟩, .fetch] = some w ∧
      w.got.map (·.id) = ["b", "a"] := ⟨_, rfl, rfl⟩
  have h := System.Reachable.of_run (.init hinit) hw
  exact ⟨w, h, hgot, (listings_exact (Host.plain .sqlite) one_pos).1 (some "queued") none w h⟩

end GgRelay.Listing
