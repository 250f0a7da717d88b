import VideoCore.Walk.Item

namespace VideoCore.Walk

/-!
# Runs of items

Items are decoded one after the other while the phase that follows is wanted.
A whole list wants every phase; compressed data on its own wants forms only.
-/

/--
Decode an item, and go on with the items after it while their phase is wanted.
-/
def runWhile
    (wanted : Phase → Bool)
    (memory : Memory)
    (phase : Phase)
    (cursor : Cursor) : Progress :=
  match _followed : (item memory phase cursor).outcome with
  | .ok (.follows next) =>
      if wanted next then
        (runWhile wanted memory next (item memory phase cursor).cursor).after
          (item memory phase cursor).events
      else
        item memory phase cursor
  | _ => item memory phase cursor
termination_by remaining cursor
decreasing_by exact remaining_item_lt _followed

/-- Decode items until nothing follows. -/
def run
    (memory : Memory)
    (phase : Phase)
    (cursor : Cursor) : Progress :=
  runWhile (fun _ => true) memory phase cursor

/--
Decode compressed index data up to an escape, a branch or the end of the region.
-/
def compressedData
    (memory : Memory)
    (cursor : Cursor) : Progress :=
  runWhile (· == .forms) memory .forms cursor

/-- Decode a packet with the compressed index data that belongs to it. -/
def step
    (memory : Memory)
    (cursor : Cursor) : Progress :=
  let progress := packet memory cursor
  match progress.outcome with
  | .ok (.follows .forms) =>
      (compressedData memory progress.cursor).after progress.events
  | _ => progress

end VideoCore.Walk
