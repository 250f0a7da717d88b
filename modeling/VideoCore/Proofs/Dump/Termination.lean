import VideoCore.Proofs.Dump.Run

namespace VideoCore.Dump

/-!
# Dumps come to an end

The areas of a dump are swept until nothing is left, with no need for a limit:
an address has only so many areas, and each of them is visited once.  Inside a
list, every item that another one follows brings the end of the region nearer.
-/

/-- The registry is bounded at every moment of a run. -/
theorem isBounded_of_prefix
    (dump : Dump)
    (parts : DumpParts)
    {earlier : List Event}
    (isEarlier : earlier <+: (dump.run [] parts).events) :
    Registry.IsBounded dump.snapshot.buffers
      (Registry.addAll [] (Event.requests earlier)) := by
  have ofDump : (dump.run [] parts).Emits (Event.OfDump dump) :=
    run_ofDump .nil parts
  have valid :
      Registry.IsValid dump.snapshot.buffers
        (Registry.addAll [] (Event.requests earlier)) :=
    Registry.IsValid.nil.addAll fun _ requested =>
      Event.canonical_of_mem_requests
        (fun event isEvent => ofDump event (isEarlier.subset isEvent))
        requested
  exact valid.isBounded

/--
Every dump comes to an end.  The sweep over its areas needs no limit, and visits
every area once; at every moment the registry is small; and every item that
another one follows brings the cursor nearer to the end of its region.
-/
theorem run_terminates
    (dump : Dump)
    (parts : DumpParts) :
    (∃ visited final,
      Sweep.Completes dump.visit (.ofRegistry (dump.found [])) visited
          final ((dump.found []).sweep dump.snapshot.buffers dump.visit) ∧
        visited <+: final.registry ∧
        final.registry.Nodup ∧
        (final.next? = none → visited = final.registry)) ∧
      (∀ limit,
        268 * dump.snapshot.buffers.addresses.card ≤ limit →
        (Sweep.ofRegistry (dump.found [])).run dump.visit limit =
          (dump.found []).sweep dump.snapshot.buffers dump.visit) ∧
      (∀ earlier,
        earlier <+: (dump.run [] parts).events →
        Registry.IsBounded dump.snapshot.buffers
          (Registry.addAll [] (Event.requests earlier))) ∧
      (∀ phase cursor next,
        (Walk.item dump.snapshot.buffers phase cursor).outcome =
          .ok (.follows next) →
        (Walk.item dump.snapshot.buffers phase cursor).cursor.stop =
            cursor.stop ∧
          cursor.addr + 1 ≤
            (Walk.item dump.snapshot.buffers phase cursor).cursor.addr ∧
          (Walk.item dump.snapshot.buffers phase cursor).cursor.addr ≤
            cursor.stop) ∧
      (∀ cursor next,
        (Walk.step dump.snapshot.buffers cursor).outcome =
          .ok (.follows next) →
        (Walk.step dump.snapshot.buffers cursor).cursor.stop =
            cursor.stop ∧
          cursor.addr + 1 ≤
            (Walk.step dump.snapshot.buffers cursor).cursor.addr ∧
          (Walk.step dump.snapshot.buffers cursor).cursor.addr ≤
            cursor.stop) := by
  have valid : (dump.found []).IsValid dump.snapshot.buffers :=
    isValid_found .nil
  obtain ⟨visited, final, completes⟩ := exists_completes valid
  refine ⟨⟨visited, final, completes, ?_⟩, ?_, ?_, ?_, ?_⟩
  · obtain ⟨isPrefix, atEnd⟩ := visited_of_completes completes
    exact ⟨isPrefix, completes.visits.nodup_registry valid.unique, atEnd⟩
  · intro limit enough
    exact sweep_eq_of_le valid completes enough
  · intro earlier isEarlier
    exact isBounded_of_prefix dump parts isEarlier
  · intro phase cursor next follows
    exact ⟨(Walk.item_moves ..).stop_eq, Walk.lt_addr_item follows⟩
  · intro cursor next follows
    exact ⟨(Walk.step_moves ..).stop_eq, Walk.lt_addr_step follows⟩

end VideoCore.Dump
