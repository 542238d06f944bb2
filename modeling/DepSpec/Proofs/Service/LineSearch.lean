import DepSpec.Proofs.Service.Framing

set_option autoImplicit false

/-! # Looking for line ends within the buffer

A framer looks for the next line feed behind the bytes that it has scanned. That is right only
while the count of scanned bytes is: one that is too large points behind the buffer or hides a line
end.

`Framer.TakesLines` is a run of the loop that takes the lines off a buffer, in which every slice
lies within the buffer and every search finds what a search of the whole buffer finds. There is
such a run exactly if the scanned bytes hold no line feed (`Framer.takesLines_iff`). However a
framer with line framing was used, it has scanned all that it holds (`Framer.Holds.run`), so that
every read has such a run, which looks at the bytes of the read and no others. -/

namespace DepSpec

namespace Framer

open DepSpec.Frame

/-! ## Uses of a framer -/

/-- What is done with a framer. -/
inductive Op where
  | push (bytes : List UInt8)
  | finish
  deriving Repr, DecidableEq

/-- The framer behind one use. -/
def apply (f : Framer) : Op → Framer
  | .push bytes => (f.push bytes).2
  | .finish => f.finish.2

/-- The framer behind several uses, one after the other. -/
def run (f : Framer) (ops : List Op) : Framer :=
  ops.foldl apply f

/-- A use leaves a framer that is in the middle of a line, or has seen nothing. -/
theorem Holds.apply {f : Framer} {maxBytes : Nat} {line : List UInt8} (h : f.Holds maxBytes line)
    (hline : lineFeed ∉ line) (op : Op) :
    ∃ next, lineFeed ∉ next ∧ (f.apply op).Holds maxBytes next := by
  cases op with
  | push bytes =>
    exact ⟨_, (cutLines_spec (line ++ bytes)).2.2, (told_push h hline bytes).2⟩
  | finish =>
    refine ⟨[], List.not_mem_nil, ?_⟩
    show f.finish.2.Holds maxBytes []
    rw [h.finish_eq_fresh]
    exact holds_fresh maxBytes

theorem Holds.run {f : Framer} {maxBytes : Nat} {line : List UInt8} (h : f.Holds maxBytes line)
    (hline : lineFeed ∉ line) (ops : List Op) :
    ∃ next, lineFeed ∉ next ∧ (f.run ops).Holds maxBytes next := by
  induction ops generalizing f line with
  | nil => exact ⟨line, hline, h⟩
  | cons op ops ih =>
    obtain ⟨next, hnext, hholds⟩ := h.apply hline op
    exact ih hholds hnext

/-! ## Runs of the loop -/

/-- A run of the loop that takes the lines off the buffer of a framer, with the bytes that it looks
    at, the frames that it gives and the framer that it leaves. Each slice has to lie within the
    buffer, and each search has to find what a search of the whole buffer finds. -/
inductive TakesLines : Framer → List UInt8 → List Frame → Framer → Prop where
  /-- The bytes behind what is scanned hold no line feed. -/
  | done {f : Framer} (searched : f.scanned ≤ f.buffer.length) (found : f.lineEnd? = none)
      (whole : f.buffer.findIdx? (· == lineFeed) = none) :
      TakesLines f (f.buffer.drop f.scanned) [] f
  /-- A line is split off with its line feed, and then sliced in front of it. -/
  | line {f g : Framer} {pos : Nat} {seen : List UInt8} {frames : List Frame}
      (searched : f.scanned ≤ f.buffer.length) (found : f.lineEnd? = some pos)
      (whole : f.buffer.findIdx? (· == lineFeed) = some pos)
      (split : pos + 1 ≤ f.buffer.length) (sliced : pos ≤ (f.buffer.take (pos + 1)).length)
      (rest : TakesLines (f.skipLine pos) seen frames g) :
      TakesLines f ((f.buffer.take (pos + 1)).drop f.scanned ++ seen)
        ((f.lineFrame? pos).toList ++ frames) g

theorem takeLines_of_lineEnd?_eq_none {f : Framer} (h : f.lineEnd? = none) :
    f.takeLines = ([], f) := by
  rw [takeLines]
  split
  · rfl
  · next pos hend => simp [h] at hend

theorem takeLines_of_lineEnd?_eq_some {f : Framer} {pos : Nat} (h : f.lineEnd? = some pos) :
    f.takeLines =
      ((f.lineFrame? pos).toList ++ (f.skipLine pos).takeLines.1,
        (f.skipLine pos).takeLines.2) := by
  rw [takeLines]
  split
  · next hend => simp [h] at hend
  · next end? hend =>
    obtain rfl : end? = pos := by simpa [h] using hend.symm
    rfl

/-- A line ends behind the scanned bytes. -/
theorem scanned_le_of_lineEnd? {f : Framer} {pos : Nat} (h : f.lineEnd? = some pos) :
    f.scanned ≤ pos := by
  unfold lineEnd? at h
  obtain ⟨offset, -, rfl⟩ := Option.map_eq_some_iff.1 h
  exact Nat.le_add_right ..

/-- The bytes behind the scanned ones are those to the end of the line, and those behind it. -/
theorem drop_scanned_of_lineEnd? {f : Framer} {pos : Nat} (h : f.lineEnd? = some pos) :
    f.buffer.drop f.scanned =
      (f.buffer.take (pos + 1)).drop f.scanned ++ f.buffer.drop (pos + 1) := by
  have hle := scanned_le_of_lineEnd? h
  have hlt := lineEnd?_lt h
  have hin : f.scanned ≤ (f.buffer.take (pos + 1)).length := by
    rw [List.length_take]
    omega
  rw [← List.drop_append_of_le_length hin, List.take_append_drop]

/-- No line feed stands in front of the first one. -/
theorem not_mem_take_of_findIdx? {bytes : List UInt8} {pos n : Nat}
    (h : bytes.findIdx? (· == lineFeed) = some pos) (hle : n ≤ pos) :
    lineFeed ∉ bytes.take n := by
  obtain ⟨hlt, -, hfirst⟩ := List.findIdx?_eq_some_iff_getElem.1 h
  intro hmem
  obtain ⟨i, hi, hget⟩ := List.mem_iff_getElem.1 hmem
  rw [List.length_take] at hi
  rw [List.getElem_take] at hget
  have hnot := hfirst i (by omega)
  simp [hget] at hnot

/-- The loop has a run while what counts as scanned holds no line feed. -/
theorem takesLines_takeLines (f : Framer) (h : f.IsScanned) :
    f.TakesLines (f.buffer.drop f.scanned) f.takeLines.1 f.takeLines.2 := by
  -- The recursion is on the buffer: what stands behind a line is shorter, with nothing scanned.
  induction hn : f.buffer.length using Nat.strongRecOn generalizing f with
  | ind n ih =>
    have hwhole := lineEnd?_eq_findIdx? h
    cases hend : f.lineEnd? with
    | none =>
      rw [takeLines_of_lineEnd?_eq_none hend]
      exact TakesLines.done h.1 hend (hwhole ▸ hend)
    | some pos =>
      have hlt := lineEnd?_lt hend
      have hrest : (f.skipLine pos).TakesLines (f.buffer.drop (pos + 1))
          (f.skipLine pos).takeLines.1 (f.skipLine pos).takeLines.2 := by
        refine ih _ ?_ (f.skipLine pos) (isScanned_skipLine f pos) rfl
        simp only [skipLine, List.length_drop]
        omega
      rw [takeLines_of_lineEnd?_eq_some hend, drop_scanned_of_lineEnd? hend]
      refine TakesLines.line h.1 hend (hwhole ▸ hend) hlt ?_ hrest
      rw [List.length_take]
      omega

/-- **The loop has a run within the buffer exactly if the scanned bytes hold no line feed.** It
    looks at the bytes behind them, each once and in order, and gives what the loop gives. -/
theorem takesLines_iff {f g : Framer} {seen : List UInt8} {frames : List Frame} :
    f.TakesLines seen frames g ↔
      f.IsScanned ∧ seen = f.buffer.drop f.scanned ∧ f.takeLines = (frames, g) := by
  constructor
  · intro h
    induction h with
    | @done f searched found whole =>
      refine ⟨⟨searched, ?_⟩, rfl, takeLines_of_lineEnd?_eq_none found⟩
      intro hmem
      have hnot := List.findIdx?_eq_none_iff.1 whole lineFeed (List.mem_of_mem_take hmem)
      simp at hnot
    | @line f g pos seen frames searched found whole split sliced rest ih =>
      -- The first line feed of the buffer was found behind the scanned bytes, so none is in them.
      obtain ⟨-, hseen, hrest⟩ := ih
      have hnot := not_mem_take_of_findIdx? whole (scanned_le_of_lineEnd? found)
      refine ⟨⟨searched, hnot⟩, ?_, ?_⟩
      · rw [drop_scanned_of_lineEnd? found, hseen, skipLine, List.drop_zero]
      · rw [takeLines_of_lineEnd?_eq_some found, hrest]
  · rintro ⟨hscanned, rfl, htake⟩
    simpa only [htake] using takesLines_takeLines f hscanned

/-- A count that is too large hides a line end. -/
example : lineEnd? { framing := .newline, maxBytes := 8, buffer := [lineFeed, 97], scanned := 1 } =
    none := by decide

/-! ## Reads -/

/-- A read takes its lines off within the buffer, and looks at its own bytes only. -/
theorem Holds.takesLines {f : Framer} {maxBytes : Nat} {line : List UInt8}
    (h : f.Holds maxBytes line) (bytes : List UInt8) :
    ∃ frames g,
      TakesLines { f with buffer := f.buffer ++ bytes } bytes frames g ∧
        f.push bytes = (frames ++ g.limit.1, g.limit.2) := by
  refine ⟨_, _, takesLines_iff.2 ⟨h.isScanned bytes, ?_, rfl⟩, push_newline h.framing bytes⟩
  show bytes = (f.buffer ++ bytes).drop f.scanned
  rw [h.scanned, List.drop_left]

/-- **However a framer with line framing was used**, it has scanned all that it holds, holds no
    line feed and no more bytes than the limit. The lines that a read completes are then taken off
    without leaving the buffer, each search finds what a search of the whole buffer finds, and only
    the bytes of the read are looked at. -/
theorem reads_search_within_buffer (maxBytes : Nat) (ops : List Op) :
    let f := (fresh .newline maxBytes).run ops
    f.scanned = f.buffer.length ∧ lineFeed ∉ f.buffer ∧ f.pending ≤ maxBytes ∧
      ∀ bytes, ∃ frames g,
        TakesLines { f with buffer := f.buffer ++ bytes } bytes frames g ∧
          f.push bytes = (frames ++ g.limit.1, g.limit.2) := by
  intro f
  obtain ⟨line, -, hholds⟩ := (holds_fresh maxBytes).run List.not_mem_nil ops
  exact ⟨hholds.scanned, hholds.not_mem, hholds.length_le, hholds.takesLines⟩

end Framer

end DepSpec
