import VideoCore.Hexdump
import VideoCore.Proofs.Text.Hexadecimal

namespace VideoCore

/-!
# Hexadecimal dumps lose nothing

The lines that a dump consists of are described here as offsets and chunks,
apart from how they are printed.  A line's text determines its offset, and its
chunk once the length of that is known.  An abbreviated dump prints every line
that differs from the one before and one star for a run of others
(`Abbreviates`); the address behind a run says how long the run was.  So the
printed lines and the number of bytes determine the bytes, abbreviated or not.
-/

namespace Bytes

/-- The pieces of a byte string make it up. -/
theorem flatten_chunks
    {size : Nat}
    (positive : 0 < size)
    (bytes : Bytes) :
    (bytes.chunks size).flatten = bytes := by
  induction bytes using chunks.induct size with
  | case1 bytes finished =>
      have isEmpty := finished.resolve_left (by omega)
      simp [chunks, isEmpty]
  | case2 bytes unfinished inductionHypothesis =>
      rw [chunks, if_neg unfinished, List.flatten_cons, inductionHypothesis,
        List.take_append_drop]

/-- How long the pieces are depends on the length of the byte string only. -/
theorem lengths_of_chunks
    (size : Nat)
    {first second : Bytes}
    (lengths : first.length = second.length) :
    (first.chunks size).map List.length =
      (second.chunks size).map List.length := by
  induction first using chunks.induct size generalizing second with
  | case1 first finished =>
      have otherFinished : size = 0 ∨ second = [] := by
        rw [← List.length_eq_zero_iff, ← lengths, List.length_eq_zero_iff]
        exact finished
      rw [chunks, if_pos finished, chunks, if_pos otherFinished]
  | case2 first unfinished inductionHypothesis =>
      have otherUnfinished : ¬(size = 0 ∨ second = []) := by
        rw [← List.length_eq_zero_iff, ← lengths, List.length_eq_zero_iff]
        exact unfinished
      have restLengths :=
        @inductionHypothesis (second.drop size) (by simp [lengths])
      unfold chunks
      rw [if_neg unfinished, if_neg otherUnfinished, List.map_cons,
        List.map_cons, restLengths]
      simp [lengths]

end Bytes

namespace Hexdump

/-- A line of a dump before it is printed. -/
@[ext]
structure DumpLine where
  /-- How many bytes stand before it. -/
  offset : Nat
  chunk : Bytes

namespace DumpLine

/-- How the line is printed if it is not left out. -/
def text
    (style : HexdumpStyle)
    (line : DumpLine) : String :=
  chunkLine style line.offset (.ofBytes line.chunk)

end DumpLine

/-- The lines of some chunks, of which the first has the given offset. -/
def dumpLines (stride : Nat) : Nat → List Bytes → List DumpLine
  | _, [] => []
  | offset, chunk :: rest =>
      ⟨offset, chunk⟩ :: dumpLines stride (offset + stride) rest

/-- How lines are printed, and which of them a star stands for. -/
inductive Abbreviates (style : HexdumpStyle) :
    List DumpLine →
    List String →
    Prop where
  | nil : Abbreviates style [] []
  /-- A line is printed; the one after it differs. -/
  | single
      {line : DumpLine}
      {rest : List DumpLine}
      {printed : List String}
      (differs : ∀ next ∈ rest.head?, next.chunk ≠ line.chunk)
      (later : Abbreviates style rest printed) :
      Abbreviates style (line :: rest) (line.text style :: printed)
  /--
  A line is printed; a star stands for all lines after it that are like it.
  -/
  | run
      {line first : DumpLine}
      {left rest : List DumpLine}
      {printed : List String}
      (same : ∀ member ∈ first :: left, member.chunk = line.chunk)
      (differs : ∀ next ∈ rest.head?, next.chunk ≠ line.chunk)
      (later : Abbreviates style rest printed) :
      Abbreviates style (line :: first :: (left ++ rest))
        (line.text style :: skipLine style first.offset :: printed)

/-! ## Texts of lines -/

section Texts

variable {style : HexdumpStyle}

/-- What stands behind the address and the two spaces of a printed line. -/
private def shownBytes
    (style : HexdumpStyle)
    (chunk : Bytes) : List Char :=
  ("  ".intercalate (columns style.stride chunk)).toList ++ ' ' :: ' ' :: '|' ::
    (fillRight style.stride (String.ofList (chunk.map printable)) ++ "|").toList

/-- A line shows its offset and then its bytes. -/
private theorem toList_text
    (style : HexdumpStyle)
    (line : DumpLine) :
    (line.text style).toList =
      (addressText style line.offset).toList ++
        ' ' :: ' ' :: shownBytes style line.chunk := by
  simp [DumpLine.text, chunkLine, shownBytes]

/-- A line printed in full is longer than a star at its address. -/
theorem DumpLine.text_ne_skipLine
    (style : HexdumpStyle)
    (line : DumpLine) :
    line.text style ≠ skipLine style line.offset := by
  intro same
  have lengths := congrArg (fun text => text.toList.length) same
  simp only [toList_text, skipLine, String.toList_append, shownBytes,
    List.length_append, List.length_cons, String.reduceToList,
    List.length_nil] at lengths
  omega

/-- The text of a line determines its offset. -/
theorem DumpLine.offset_eq_of_text_eq
    {first second : DumpLine}
    (same : first.text style = second.text style) :
    first.offset = second.offset := by
  have sameText := congrArg String.toList same
  simp only [toList_text, addressText, String.toList_append,
    List.append_assoc] at sameText
  have sameAddress :=
    Hexadecimal.padded_space_inj (List.append_cancel_left sameText)
  omega

private theorem length_fillRight
    (width : Nat)
    (text : String) :
    (fillRight width text).length = max text.length width := by
  simp only [fillRight, String.length_append, String.length_ofList,
    List.length_replicate]
  omega

/-- Texts of equal length are found again after filling. -/
private theorem fillRight_inj
    {width : Nat}
    {first second : String}
    (lengths : first.length = second.length)
    (same : fillRight width first = fillRight width second) :
    first = second := by
  have sameText := congrArg String.toList same
  simp only [fillRight, String.toList_append] at sameText
  exact String.toList_inj.mp (List.append_inj_left sameText
    (by rw [String.length_toList, String.length_toList, lengths]))

/-- The text of a column that shows some bytes. -/
private def columnText (piece : Bytes) : String :=
  fillRight 23 (Hexadecimal.bytes " " piece)

private theorem length_columnText
    (piece : Bytes) :
    (columnText piece).length =
      max (2 * piece.length + (piece.length - 1)) 23 := by
  have oneSpace : " ".length = 1 := rfl
  rw [columnText, length_fillRight, Hexadecimal.length_bytes, oneSpace,
    Nat.mul_one]

/-- Columns that show as many bytes show the same ones if they look the same. -/
private theorem eq_of_columnTexts_eq
    {first second : List Bytes}
    (lengths : first.map List.length = second.map List.length)
    (same : first.map columnText = second.map columnText) :
    first = second := by
  induction first generalizing second with
  | nil => simpa using lengths.symm
  | cons head tail inductionHypothesis =>
      cases second with
      | nil => simp at lengths
      | cons otherHead otherTail =>
          obtain ⟨headLength, tailLengths⟩ := List.cons.inj lengths
          obtain ⟨sameHead, sameTail⟩ := List.cons.inj same
          have textLengths :
              (Hexadecimal.bytes " " head).length =
                (Hexadecimal.bytes " " otherHead).length := by
            rw [Hexadecimal.length_bytes, Hexadecimal.length_bytes, headLength]
          have sameBytes := fillRight_inj textLengths sameHead
          rw [Hexadecimal.eq_of_bytes_eq headLength sameBytes,
            inductionHypothesis tailLengths sameTail]

/-- Columns are shown for the pieces of a chunk, and blank ones behind them. -/
private theorem columns_eq
    (stride : Nat)
    (chunk : Bytes) :
    columns stride chunk = (chunk.chunks columnSize).map columnText ++
      List.replicate
        ((stride + columnSize - 1) / columnSize -
          (chunk.chunks columnSize).length)
        (fillRight 23 "") := by
  simp only [columns, List.map_append, List.map_map, List.length_map,
    List.map_replicate]
  rfl

/--
The text of a line determines its chunk, once the length of that is known.
-/
theorem DumpLine.eq_of_text_eq
    {first second : DumpLine}
    (lengths : first.chunk.length = second.chunk.length)
    (same : first.text style = second.text style) :
    first = second := by
  have sameOffset := DumpLine.offset_eq_of_text_eq same
  have pieceLengths := Bytes.lengths_of_chunks columnSize lengths
  have pieceCount :
      (first.chunk.chunks columnSize).length =
        (second.chunk.chunks columnSize).length := by
    simpa using congrArg List.length pieceLengths
  have columnLengths :
      ((columns style.stride first.chunk).map String.toList).map
          List.length =
        ((columns style.stride second.chunk).map String.toList).map
          List.length := by
    have lengthsOf
        (pieces : List Bytes) :
        ((pieces.map columnText).map String.toList).map List.length =
          (pieces.map List.length).map fun length =>
            max (2 * length + (length - 1)) 23 := by
      simp [Function.comp_def, String.length_toList, length_columnText]
    simp only [columns_eq, List.map_append, lengthsOf, pieceLengths, pieceCount]
  have sameText := congrArg String.toList same
  rw [toList_text, toList_text, sameOffset] at sameText
  have sameBytes :=
    List.cons.inj (List.cons.inj (List.append_cancel_left sameText)).2
  simp only [shownBytes, String.toList_intercalate] at sameBytes
  have sameColumns :=
    (Hexadecimal.intercalate_append_inj columnLengths sameBytes.2).1
  have sameStrings :=
    List.map_injective_iff.mpr (fun _ _ => String.toList_inj.mp) sameColumns
  rw [columns_eq, columns_eq] at sameStrings
  have samePieces := eq_of_columnTexts_eq pieceLengths
    (List.append_inj_left sameStrings (by simpa using pieceCount))
  have sameChunk : first.chunk = second.chunk := by
    have positive : 0 < columnSize := by decide
    rw [← Bytes.flatten_chunks positive first.chunk, samePieces,
      Bytes.flatten_chunks positive]
  exact DumpLine.ext sameOffset sameChunk

end Texts

/-! ## Offsets of lines -/

/-- The lines stand at offsets a stride apart. -/
def IsNumbered (stride : Nat) : Nat → List DumpLine → Prop
  | _, [] => True
  | offset, line :: rest =>
      line.offset = offset ∧ IsNumbered stride (offset + stride) rest

/-- The lines of a dump are numbered by their offsets. -/
theorem isNumbered_dumpLines
    (stride offset : Nat)
    (chunks : List Bytes) :
    IsNumbered stride offset (dumpLines stride offset chunks) := by
  induction chunks generalizing offset with
  | nil => trivial
  | cons chunk rest inductionHypothesis =>
      exact ⟨rfl, inductionHypothesis (offset + stride)⟩

/-- Behind some lines, the numbering goes on from their end. -/
theorem IsNumbered.of_append
    {stride offset : Nat}
    (front : List DumpLine)
    {rest : List DumpLine}
    (numbered : IsNumbered stride offset (front ++ rest)) :
    IsNumbered stride (offset + front.length * stride) rest := by
  induction front generalizing offset with
  | nil => simpa using numbered
  | cons line front inductionHypothesis =>
      have later := inductionHypothesis numbered.2
      have frontLength : offset + stride + front.length * stride =
          offset + (line :: front).length * stride := by
        simp only [List.length_cons]
        ring
      rwa [frontLength] at later

theorem IsNumbered.offset_of_head
    {stride offset : Nat}
    {lines : List DumpLine}
    (numbered : IsNumbered stride offset lines) :
    ∀ line ∈ lines.head?, line.offset = offset := by
  cases lines with
  | nil => simp
  | cons line rest => simpa using numbered.1

/-- The lines of a dump have all chunks, in order. -/
theorem map_chunk_dumpLines
    (stride offset : Nat)
    (chunks : List Bytes) :
    (dumpLines stride offset chunks).map DumpLine.chunk = chunks := by
  induction chunks generalizing offset with
  | nil => rfl
  | cons chunk rest inductionHypothesis => simp [dumpLines, inductionHypothesis]

/-! ## Abbreviated dumps -/

namespace Abbreviates

variable {style : HexdumpStyle}

/-- The first line is always printed. -/
theorem head?_eq
    {lines : List DumpLine}
    {printed : List String}
    (abbreviates : Abbreviates style lines printed) :
    printed.head? = lines.head?.map (DumpLine.text style) := by
  cases abbreviates <;> rfl

/-- The line after one printed in full is not shown by a star at its offset. -/
private theorem not_starts_with_star
    {offset : Nat}
    {rest : List DumpLine}
    {printed : List String}
    (abbreviates : Abbreviates style rest (skipLine style offset :: printed))
    (numbered : IsNumbered style.stride offset rest) :
    False := by
  have starts := abbreviates.head?_eq
  obtain ⟨line, isHead, isStar⟩ := Option.map_eq_some_iff.mp starts.symm
  have sameOffset := numbered.offset_of_head line isHead
  exact line.text_ne_skipLine style (sameOffset ▸ isStar)

/--
What follows a run is printed with its offset, which says how long the run was.
-/
private theorem runs_agree
    (positive : 0 < style.stride)
    {offset firstCount secondCount : Nat}
    {firstRest secondRest : List DumpLine}
    {printed : List String}
    (first : Abbreviates style firstRest printed)
    (second : Abbreviates style secondRest printed)
    (firstNumbered :
      IsNumbered style.stride (offset + firstCount * style.stride) firstRest)
    (secondNumbered :
      IsNumbered style.stride (offset + secondCount * style.stride) secondRest)
    (count : firstCount + firstRest.length = secondCount + secondRest.length) :
    firstCount = secondCount := by
  have sameHead : firstRest.head?.map (DumpLine.text style) =
      secondRest.head?.map (DumpLine.text style) :=
    first.head?_eq.symm.trans second.head?_eq
  cases firstRest with
  | nil =>
      have noMore : secondRest = [] := by simpa using sameHead.symm
      simpa [noMore] using count
  | cons line firstLater =>
      cases secondRest with
      | nil => simp at sameHead
      | cons otherLine secondLater =>
          have sameText : line.text style = otherLine.text style := by
            simpa using sameHead
          have sameOffset := DumpLine.offset_eq_of_text_eq sameText
          rw [firstNumbered.1, secondNumbered.1] at sameOffset
          exact
            Nat.eq_of_mul_eq_mul_right positive (Nat.add_left_cancel sameOffset)

/-- The chunks of lines that are alike are copies of one chunk. -/
private theorem map_chunk_of_same
    {chunk : Bytes}
    {run : List DumpLine}
    (same : ∀ member ∈ run, member.chunk = chunk) :
    run.map DumpLine.chunk = List.replicate run.length chunk :=
  List.eq_replicate_iff.mpr ⟨by simp, by simpa using same⟩

private theorem map_length_append
    {firstFront secondFront firstRest secondRest : List DumpLine}
    (fronts : firstFront.length = secondFront.length)
    (lengths : (firstFront ++ firstRest).map (fun line => line.chunk.length) =
      (secondFront ++ secondRest).map fun line => line.chunk.length) :
    firstRest.map (fun line => line.chunk.length) =
      secondRest.map fun line => line.chunk.length := by
  rw [List.map_append, List.map_append] at lengths
  exact (List.append_inj lengths (by simpa using fronts)).2

/--
What is printed determines the lines, if it is known how long they are: no two
ways to leave lines out look the same.
-/
theorem chunks_eq
    (positive : 0 < style.stride)
    {offset : Nat}
    {first second : List DumpLine}
    {printed : List String}
    (firstPrinted : Abbreviates style first printed)
    (secondPrinted : Abbreviates style second printed)
    (firstNumbered : IsNumbered style.stride offset first)
    (secondNumbered : IsNumbered style.stride offset second)
    (lengths : first.map (fun line => line.chunk.length) =
      second.map fun line => line.chunk.length) :
    first.map DumpLine.chunk = second.map DumpLine.chunk := by
  induction firstPrinted generalizing second offset with
  | nil => cases secondPrinted; rfl
  | @single line rest printed differs later inductionHypothesis =>
      generalize printedAs : line.text style :: printed = all at secondPrinted
      cases secondPrinted with
      | nil => cases printedAs
      | @single otherLine otherRest otherPrinted otherDiffers otherLater =>
          obtain ⟨sameText, rfl⟩ := List.cons.inj printedAs
          obtain ⟨headLength, restLengths⟩ := List.cons.inj lengths
          have sameLine := DumpLine.eq_of_text_eq headLength sameText
          have sameRest :=
            inductionHypothesis otherLater firstNumbered.2 secondNumbered.2
              restLengths
          rw [List.map_cons, List.map_cons, sameLine, sameRest]
      | @run otherLine otherFirst otherLeft otherRest otherPrinted otherSame
          _ _ =>
          obtain ⟨_, rfl⟩ := List.cons.inj printedAs
          have starOffset := secondNumbered.2.1
          exact (not_starts_with_star (starOffset ▸ later) firstNumbered.2).elim
  | @run line star left rest printed same differs later inductionHypothesis =>
      generalize printedAs :
        line.text style :: skipLine style star.offset :: printed = all
        at secondPrinted
      cases secondPrinted with
      | nil => cases printedAs
      | @single otherLine otherRest otherPrinted _ otherLater =>
          obtain ⟨_, rfl⟩ := List.cons.inj printedAs
          have starOffset := firstNumbered.2.1
          have noStar :=
            not_starts_with_star (starOffset ▸ otherLater) secondNumbered.2
          exact noStar.elim
      | @run otherLine otherStar otherLeft otherRest otherPrinted otherSame
          _ otherLater =>
          obtain ⟨sameText, sameTail⟩ := List.cons.inj printedAs
          obtain ⟨_, rfl⟩ := List.cons.inj sameTail
          obtain ⟨headLength, _⟩ := List.cons.inj lengths
          have sameLine := DumpLine.eq_of_text_eq headLength sameText
          -- Both runs, with the lines in front of them, are taken off.
          have firstLater :=
            IsNumbered.of_append (line :: star :: left) firstNumbered
          have secondLater :=
            IsNumbered.of_append (otherLine :: otherStar :: otherLeft)
              secondNumbered
          have sameCount : (line :: star :: left).length =
              (otherLine :: otherStar :: otherLeft).length :=
            runs_agree positive later otherLater firstLater secondLater (by
              simpa [Nat.add_assoc, Nat.add_comm, Nat.add_left_comm] using
                congrArg List.length lengths)
          have restLengths := map_length_append sameCount lengths
          have sameRest := inductionHypothesis otherLater firstLater
            (sameCount ▸ secondLater) restLengths
          have firstFront :
              ∀ member ∈ line :: star :: left, member.chunk = line.chunk :=
            List.forall_mem_cons.mpr ⟨rfl, same⟩
          have secondFront :
              ∀ member ∈ otherLine :: otherStar :: otherLeft,
                member.chunk = otherLine.chunk :=
            List.forall_mem_cons.mpr ⟨rfl, otherSame⟩
          calc (line :: star :: left ++ rest).map DumpLine.chunk
              _ = List.replicate (line :: star :: left).length line.chunk ++
                    rest.map DumpLine.chunk := by
                  rw [List.map_append, map_chunk_of_same firstFront]
              _ = List.replicate (otherLine :: otherStar :: otherLeft).length
                      otherLine.chunk ++
                    otherRest.map DumpLine.chunk := by
                  rw [sameCount, sameLine, sameRest]
              _ = (otherLine :: otherStar :: otherLeft ++ otherRest).map
                    DumpLine.chunk := by
                  rw [List.map_append, map_chunk_of_same secondFront]

end Abbreviates

/-! ## The dump of a byte string -/

section Dumps

variable {style : HexdumpStyle}

/-- A chunk is printed as the line that has its bytes. -/
private theorem chunkLine_eq_text
    (style : HexdumpStyle)
    (offset : Nat)
    (chunk : Window) :
    chunkLine style offset chunk =
      (DumpLine.mk offset chunk.toBytes).text style := by
  simp only [DumpLine.text, chunkLine, Window.toBytes_ofBytes]

/-- In full, all lines of a dump are printed. -/
theorem plainLines_eq
    (style : HexdumpStyle)
    (offset : Nat)
    (chunks : List Window) :
    plainLines style offset chunks =
      (dumpLines style.stride offset (chunks.map Window.toBytes)).map
        (DumpLine.text style) := by
  induction chunks generalizing offset with
  | nil => rfl
  | cons chunk rest inductionHypothesis =>
      simp only [plainLines, List.map_cons, dumpLines, inductionHypothesis,
        chunkLine_eq_text]

/--
The chunks like a given one that others begin with, and what follows them.
-/
private theorem exists_run
    (chunk : Window)
    (chunks : List Window) :
    ∃ same others,
      chunks = same ++ others ∧
      (∀ member ∈ same, member.toBytes = chunk.toBytes) ∧
      ∀ next ∈ others.head?, next.toBytes ≠ chunk.toBytes := by
  induction chunks with
  | nil => exact ⟨[], [], rfl, by simp, by simp⟩
  | cons head tail inductionHypothesis =>
      by_cases isSame : head.toBytes = chunk.toBytes
      · obtain ⟨same, others, split, allSame, differs⟩ := inductionHypothesis
        exact ⟨head :: same, others, by rw [split, List.cons_append],
          List.forall_mem_cons.mpr ⟨isSame, allSame⟩, differs⟩
      · exact ⟨[], head :: tail, rfl, by simp, by simpa using isSame⟩

/-- Behind a star, the chunks of the run print nothing. -/
private theorem abbreviatedLines_append
    {chunk : Window}
    {same : List Window}
    (allSame : ∀ member ∈ same, member.toBytes = chunk.toBytes)
    (offset : Nat)
    (others : List Window) :
    abbreviatedLines style ⟨some chunk, true⟩ offset (same ++ others) =
      abbreviatedLines style ⟨some chunk, true⟩
        (offset + same.length * style.stride) others := by
  induction same generalizing offset with
  | nil => simp
  | cons head tail inductionHypothesis =>
      have isShown : (some chunk).any head.shows = true := by
        simpa [Window.shows_iff] using allSame head (by simp)
      have tailSame := (List.forall_mem_cons.mp allSame).2
      have tailLength : offset + style.stride + tail.length * style.stride =
          offset + (head :: tail).length * style.stride := by
        simp only [List.length_cons]
        ring
      rw [List.cons_append, abbreviatedLines, if_pos isShown, if_pos rfl,
        inductionHypothesis tailSame, tailLength]

/-- A dump goes on behind some chunks at the offset of their end. -/
theorem dumpLines_append
    (stride offset : Nat)
    (front rest : List Bytes) :
    dumpLines stride offset (front ++ rest) =
      dumpLines stride offset front ++
        dumpLines stride (offset + front.length * stride) rest := by
  induction front generalizing offset with
  | nil => simp [dumpLines]
  | cons chunk front inductionHypothesis =>
      have frontLength : offset + stride + front.length * stride =
          offset + (chunk :: front).length * stride := by
        simp only [List.length_cons]
        ring
      simp only [List.cons_append, dumpLines, inductionHypothesis, frontLength]

theorem head?_dumpLines
    (stride offset : Nat)
    (chunks : List Bytes) :
    (dumpLines stride offset chunks).head? =
      chunks.head?.map (DumpLine.mk offset) := by
  cases chunks <;> rfl

/--
Where a new chunk begins, all that follows is printed with its runs left out.
The induction is on the number of chunks, for a run is taken off as a whole.
-/
theorem abbreviates_abbreviatedLines
    (progress : Progress)
    (offset : Nat)
    (chunks : List Window)
    (isNew : ∀ chunk ∈ chunks.head?, progress.last.any chunk.shows = false) :
    Abbreviates style
      (dumpLines style.stride offset (chunks.map Window.toBytes))
      (abbreviatedLines style progress offset chunks) := by
  match chunks with
  | [] => exact .nil
  | chunk :: rest =>
      obtain ⟨same, others, split, allSame, differs⟩ := exists_run chunk rest
      have fewer : others.length ≤ rest.length := by simp [split]
      have othersNew (skipping : Bool) :
          ∀ next ∈ others.head?,
            (Progress.mk (some chunk) skipping).last.any next.shows = false :=
        fun next isNext =>
          Bool.eq_false_iff.mpr
            (mt (Window.shows_iff next chunk).mp (differs next isNext))
      have othersDiffer (laterOffset : Nat) :
          ∀ next ∈
              (dumpLines style.stride laterOffset
                (others.map Window.toBytes)).head?,
            next.chunk ≠ chunk.toBytes := by
        simpa [head?_dumpLines] using differs
      rw [abbreviatedLines, if_neg (by simpa using isNew chunk rfl),
        chunkLine_eq_text]
      cases same with
      | nil =>
          rw [List.nil_append] at split
          subst split
          exact .single (othersDiffer _)
            (abbreviates_abbreviatedLines _ (offset + style.stride) rest
              (othersNew false))
      | cons first left =>
          subst split
          have isShown : (some chunk).any first.shows = true := by
            simpa [Window.shows_iff] using allSame first (by simp)
          have leftSame := (List.forall_mem_cons.mp allSame).2
          rw [List.cons_append, abbreviatedLines, if_pos isShown,
            if_neg (by simp), abbreviatedLines_append leftSame]
          simp only [List.map_cons, List.map_append, dumpLines,
            dumpLines_append, List.length_map]
          refine .run ?_ (othersDiffer _)
            (abbreviates_abbreviatedLines _ _ others (othersNew true))
          intro member isMember
          have inChunks :
              member.chunk ∈ (dumpLines style.stride (offset + style.stride)
                ((first :: left).map Window.toBytes)).map DumpLine.chunk :=
            List.mem_map_of_mem isMember
          rw [map_chunk_dumpLines] at inChunks
          obtain ⟨window, inRun, isWindow⟩ := List.mem_map.mp inChunks
          exact isWindow ▸ allSame window inRun
termination_by chunks.length
decreasing_by
  all_goals simp only [List.length_cons] at *
  all_goals omega

/-- The lines of a byte string in a dump of some stride. -/
def linesOf
    (stride : Nat)
    (bytes : Bytes) :
    List DumpLine :=
  dumpLines stride 0 (bytes.chunks stride)

theorem linesWithStride_eq
    (start : Int)
    (abbreviate : Bool)
    {stride : Int}
    (positive : 1 ≤ stride)
    (indent : String)
    (bytes : Bytes) :
    linesWithStride start abbreviate stride indent bytes =
      .ok
        (lines ⟨start, abbreviate, stride.toNat, indent⟩ (.ofBytes bytes)) := by
  rw [linesWithStride, if_neg (by omega)]

theorem lines_eq_map_text
    (plain : style.abbreviate = false)
    (bytes : Bytes) :
    lines style (.ofBytes bytes) =
      (linesOf style.stride bytes).map (DumpLine.text style) := by
  simp only [lines, plain, Bool.false_eq_true, if_false, plainLines_eq,
    Window.map_toBytes_chunks, Window.toBytes_ofBytes, linesOf]

/-- What is printed otherwise abbreviates the lines. -/
theorem abbreviates_lines
    (abbreviated : style.abbreviate = true)
    (bytes : Bytes) :
    Abbreviates style (linesOf style.stride bytes)
      (lines style (.ofBytes bytes)) := by
  simp only [lines, abbreviated, if_true]
  rw [linesOf, ← Window.toBytes_ofBytes bytes, ← Window.map_toBytes_chunks,
    Window.toBytes_ofBytes]
  exact abbreviates_abbreviatedLines ⟨none, false⟩ 0 _ (by simp)

private theorem lengths_of_linesOf
    (stride : Nat)
    {first second : Bytes}
    (lengths : first.length = second.length) :
    (linesOf stride first).map (fun line => line.chunk.length) =
      (linesOf stride second).map fun line => line.chunk.length := by
  have ofChunks (bytes : Bytes) :
      (linesOf stride bytes).map (fun line => line.chunk.length) =
        (bytes.chunks stride).map List.length := by
    rw [← map_chunk_dumpLines stride 0 (bytes.chunks stride), List.map_map]
    rfl
  rw [ofChunks, ofChunks, Bytes.lengths_of_chunks stride lengths]

/--
Lines that are all printed determine their chunks, if their lengths are known.
-/
private theorem chunks_eq_of_texts_eq
    {first second : List DumpLine}
    (lengths : first.map (fun line => line.chunk.length) =
      second.map fun line => line.chunk.length)
    (same : first.map (DumpLine.text style) =
      second.map (DumpLine.text style)) :
    first.map DumpLine.chunk = second.map DumpLine.chunk := by
  induction first generalizing second with
  | nil => simp [show second = [] by simpa using lengths.symm]
  | cons line rest inductionHypothesis =>
      cases second with
      | nil => simp at lengths
      | cons otherLine otherRest =>
          obtain ⟨headLength, restLengths⟩ := List.cons.inj lengths
          obtain ⟨sameText, sameRest⟩ := List.cons.inj same
          rw [List.map_cons, List.map_cons,
            DumpLine.eq_of_text_eq headLength sameText,
            inductionHypothesis restLengths sameRest]

/-- The printed lines and the number of bytes determine the bytes. -/
theorem eq_of_lines_eq
    (positive : 0 < style.stride)
    {first second : Bytes}
    (lengths : first.length = second.length)
    (same : lines style (.ofBytes first) = lines style (.ofBytes second)) :
    first = second := by
  have lineLengths := lengths_of_linesOf style.stride lengths
  have sameChunks : (linesOf style.stride first).map DumpLine.chunk =
      (linesOf style.stride second).map DumpLine.chunk := by
    cases abbreviated : style.abbreviate with
    | false =>
        rw [lines_eq_map_text abbreviated,
          lines_eq_map_text abbreviated] at same
        exact chunks_eq_of_texts_eq lineLengths same
    | true =>
        have firstPrinted := abbreviates_lines abbreviated first
        have secondPrinted := abbreviates_lines abbreviated second
        rw [← same] at secondPrinted
        exact firstPrinted.chunks_eq positive secondPrinted
          (isNumbered_dumpLines ..) (isNumbered_dumpLines ..) lineLengths
  rw [linesOf, linesOf, map_chunk_dumpLines, map_chunk_dumpLines] at sameChunks
  rw [← Bytes.flatten_chunks positive first, sameChunks,
    Bytes.flatten_chunks positive]

end Dumps

/-- What the dumps of a byte string show, in full and abbreviated. -/
structure IsDumpedAs
    (start stride : Int)
    (indent : String)
    (bytes : Bytes)
    (plain short : List String) : Prop where
  plain_printed : linesWithStride start false stride indent bytes = .ok plain
  short_printed : linesWithStride start true stride indent bytes = .ok short
  /-- In full, every line is printed. -/
  plain_eq : plain =
    (linesOf stride.toNat bytes).map
      (DumpLine.text ⟨start, false, stride.toNat, indent⟩)
  /--
  Abbreviated, one star stands for each run of lines like the line before it.
  -/
  short_abbreviates :
    Abbreviates ⟨start, true, stride.toNat, indent⟩
      (linesOf stride.toNat bytes) short
  /--
  Either way the lines determine the bytes among those of the same number.
  -/
  determined : ∀ (abbreviate : Bool) (other : Bytes),
    other.length = bytes.length →
    linesWithStride start abbreviate stride indent other =
      linesWithStride start abbreviate stride indent bytes →
    other = bytes

/--
Abbreviation leaves out runs only, and nothing of the bytes is lost by it.
-/
theorem abbreviation_isLossless
    (start : Int)
    {stride : Int}
    (positive : 1 ≤ stride)
    (indent : String)
    (bytes : Bytes) :
    ∃ plain short, IsDumpedAs start stride indent bytes plain short := by
  refine ⟨_, _, linesWithStride_eq start false positive indent bytes,
    linesWithStride_eq start true positive indent bytes,
    lines_eq_map_text rfl bytes, abbreviates_lines rfl bytes, ?_⟩
  intro abbreviate other lengths same
  rw [linesWithStride_eq start abbreviate positive,
    linesWithStride_eq start abbreviate positive, Except.ok.injEq] at same
  exact eq_of_lines_eq (by simp only; omega) lengths same

/--
Ten bytes in lines of three, the second and third of which are like the first.
-/
theorem abbreviation_isLossless_of_run :
    ∃ plain short,
      IsDumpedAs 0x1000 3 "  " [1, 2, 3, 1, 2, 3, 1, 2, 3, 4] plain short :=
  abbreviation_isLossless 0x1000 (by decide) "  " [1, 2, 3, 1, 2, 3, 1, 2, 3, 4]

end Hexdump

end VideoCore
