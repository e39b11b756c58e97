import TokenNet.Proofs.Change.Keys
import TokenNet.Proofs.Network.Classes

/-!
# Keys are never issued twice

A store is a finite map with fresh keys: whatever it is asked, with keys of any origin, it answers
as the record of all requests and answers tells.  A generation is the number of times that its slot
was vacated, so a machine word holds every generation of a store whose slots were each vacated less
often than the word counts.

The cells of a network stand in such a store, and a network only ever makes requests to it.  So a
key that was read off a port once finds nothing any more, for good, from the moment at which no port
names it.
-/

namespace TokenNet.Network

/-! ## Rewirings that give cells up -/

section

variable {net : Network}

/-- A request to take a port out of its class does so, and leaves the graph if there is no such
port. -/
theorem graph_rewire_detach (known : Bool) (port : Port)
    (h : net.graph.HasPort port → known = true) :
    (net.change (net.rewire known fun graph => graph.detach port)).1.graph =
      net.graph.detach port := by
  cases hknown : known with
  | true => exact congrArg Network.graph (perform_rewire_of_known rfl)
  | false =>
    -- A port that is unknown has no cell, so taking it out changes nothing
    have hloose : net.graph.portCell? port = none := by
      by_contra hlive
      obtain ⟨cell, hcell⟩ := Option.ne_none_iff_exists'.mp hlive
      rw [h (Graph.hasPort_of_portCell? hcell)] at hknown
      cases hknown
    rw [Graph.detach_of_none hloose]
    exact congrArg Network.graph (perform_rewire_of_unknown rfl)

theorem graph_perform_disconnectInlet (inlet : InletId) :
    (net.perform (.disconnectInlet inlet)).1.graph = net.graph.detach (.inlet inlet) :=
  graph_rewire_detach (net.hasInlet inlet) (.inlet inlet) fun hinlet => decide_eq_true hinlet

theorem graph_perform_disconnectOutlet (outlet : OutletId) :
    (net.perform (.disconnectOutlet outlet)).1.graph = net.graph.detach (.outlet outlet) :=
  graph_rewire_detach (net.hasOutlet outlet) (.outlet outlet) fun houtlet => decide_eq_true houtlet

/-- A request to merge two cells does so: their ports are known. -/
theorem graph_perform_connect_of_merging {inlet : InletId} {outlet : OutletId}
    {merged : CellId × CellId} (h : net.graph.merging? inlet outlet = some merged) :
    (net.perform (.connect inlet outlet)).1.graph = net.graph.connect inlet outlet := by
  unfold Graph.merging? at h
  split at h
  next a b ha hb =>
    -- Pins with cells are there, so the guard lets the call pass
    have hinlet : net.hasInlet inlet = true := decide_eq_true
      (Graph.hasPort_of_portCell? (show net.graph.portCell? (.inlet inlet) = some a from ha))
    have houtlet : net.hasOutlet outlet = true := decide_eq_true
      (Graph.hasPort_of_portCell? (show net.graph.portCell? (.outlet outlet) = some b from hb))
    have hknown : (net.hasInlet inlet && net.hasOutlet outlet) = true := by
      rw [hinlet, houtlet, Bool.and_true]
    exact congrArg Network.graph (perform_rewire_of_known hknown)
  next => cases h

end

/-! ## Keys -/

variable {α : Type}

/-- **A store is a finite map with fresh keys, and a cell that is gone stays gone.**

Whatever a store was asked from the start, it never answers a key twice.  A key finds a value if it
was issued and its value was not given up since, and finds the value that was stored last.  Giving
up by any other key changes nothing and answers with no value.  The size of the store, counted up and
down as values come and go, is the number of keys that find a value, and its list of vacant slots
names each empty slot once.  A generation is the number of times that its slot was vacated, and no
key was issued with a larger one.

If a port of a network names a cell, then after any calls the key of that cell finds a cell as long
as some port names it.  It finds nothing once its cell was merged away or its last port was
detached, and then nothing after any further calls either. -/
theorem keys_are_never_reused (requests : List (Store.Request α)) {net : Network}
    (h : net.Reachable) {port : Port} {saved : CellId}
    (hsaved : net.graph.portCell? port = some saved) (calls : List Call) :
    (let (store, record) := ({} : Store α).serveAll requests
     record.map Prod.fst = requests ∧ store.FreshMap record) ∧
    (let used := (net.performAll calls).1
     (used.graph.cell? saved = none ↔ ∀ other, used.graph.portCell? other ≠ some saved) ∧
     (∀ inlet outlet survivor, used.graph.merging? inlet outlet = some (saved, survivor) →
       (used.perform (.connect inlet outlet)).1.graph.cell? saved = none) ∧
     (∀ inlet, (∀ other, used.graph.portCell? other = some saved → other = .inlet inlet) →
       (used.perform (.disconnectInlet inlet)).1.graph.cell? saved = none) ∧
     (∀ outlet, (∀ other, used.graph.portCell? other = some saved → other = .outlet outlet) →
       (used.perform (.disconnectOutlet outlet)).1.graph.cell? saved = none) ∧
     (used.graph.cell? saved = none →
       ∀ later, (used.performAll later).1.graph.cell? saved = none)) := by
  constructor
  -- What requests do to a store, and then what calls do to a network
  · exact ⟨Store.map_fst_serveAll requests _, (Store.Recorded.serveAll requests .empty).freshMap⟩
  · intro used
    have hused : net.graph.Leads used.graph := leads_performAll calls h.closed
    have hlinked : used.graph.Linked := hused.linked h.linked
    have hclosed : used.graph.Closed := hused.closed h.closed
    refine ⟨hlinked.cell?_eq_none_iff saved, fun inlet outlet survivor hmerging => ?_,
      fun inlet hlast => ?_, fun outlet hlast => ?_, fun hgone later => ?_⟩
    · rw [graph_perform_connect_of_merging hmerging]
      exact hlinked.cell?_connect_of_merging hmerging
    · rw [graph_perform_disconnectInlet]
      exact hlinked.cell?_detach_of_last hlast
    · rw [graph_perform_disconnectOutlet]
      exact hlinked.cell?_detach_of_last hlast
    -- The key was found once, so what it finds is never another value
    · have hheld : net.graph.cells.holds saved :=
        Option.isSome_iff_exists.mpr (h.linked.live hsaved)
      exact h.leads.cell?_eq_none hheld hused hgone (leads_performAll later hclosed)

/-- The cell of the first inlet of an adder is merged into that of its outlet, and its slot is used
again when the inlet is unwired and written; the old key does not find the new cell.  A store that
gave a value up uses the slot again too and counts one value, and the old key gives nothing up. -/
theorem keys_of_looped_adder : ∃ built, Library.primitives.instantiate "+" {} = .ok built ∧
    (let used := (built.performAll [.connect ⟨0⟩ ⟨0⟩]).1
     let later := (used.performAll [.disconnectInlet ⟨0⟩, .writeInlet ⟨0⟩ 0 5]).1
     built.graph.portCell? (.inlet ⟨0⟩) = some ⟨0, 0⟩ ∧
     later.graph.portCell? (.inlet ⟨0⟩) = some ⟨0, 1⟩ ∧
     later.graph.cell? ⟨0, 0⟩ = none) ∧
    (let store := (({} : Store Nat).serveAll [.insert 7, .remove ⟨0, 0⟩, .insert 8]).1
     store.get? ⟨0, 1⟩ = some 8 ∧
     store.size = 1 ∧
     store.serve (.remove ⟨0, 0⟩) = (store, .value none)) := by
  have h (built : Network) (hbuilt : Library.primitives.instantiate "+" {} = .ok built)
      (hsaved : built.graph.portCell? (.inlet ⟨0⟩) = some ⟨0, 0⟩) :=
    keys_are_never_reused ([.insert 7, .remove ⟨0, 0⟩, .insert 8] : List (Store.Request Nat))
      ⟨Library.primitives, "+", {}, built, [], hbuilt, rfl⟩ hsaved [.connect ⟨0⟩ ⟨0⟩]
  refine ⟨_, rfl, ⟨rfl, rfl, (h _ rfl rfl).2.2.2.2.2 rfl _⟩, rfl, rfl, ?_⟩
  exact (h _ rfl rfl).1.2.serve_remove_stale ⟨0, 0⟩ (by decide)

end TokenNet.Network
