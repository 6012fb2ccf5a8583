import IttyBitty.Proofs.Assembly.Extension
import IttyBitty.Proofs.CommandLine.Routes
import IttyBitty.Proofs.CommandLine.Sparing

/-!
# What compiling leaves

A compilation writes its output as the last thing that can go wrong, so it either changes no
file or comes through and changes one. When it comes through is said of the source and of
the output path alone: the source can be read, is a text, and holds a program that is not
too long, and the path leads to the place of a file.
-/

namespace IttyBitty.CommandLine

/-! ## Programs and what is written of them -/

/-- What is written of some words: the low and the high byte of each, or a line of four
lower-case figures for each. -/
def written (job : Compilation) (ws : List Word) : List UInt8 :=
  if job.toBinary then
    ws.flatMap fun w => [UInt8.ofNat (w.toNat % 256), UInt8.ofNat (w.toNat / 256)]
  else Utf8.encode (ws.flatMap fun w => Hex.fourFigures w.toNat ++ ['\n'])

variable {job : Compilation} {files : FileSystem}

theorem image_eq_written {ws : List Word} {memory : Memory}
    (h : Memory.loadWords ws = .ok memory) : Work.image job memory = written job ws := by
  have hm := hasMemory_of_loadWords h
  have hline : HexListing.line = fun w => Hex.fourFigures w.toNat ++ ['\n'] :=
    funext HexListing.line_eq
  rw [Work.image, written, hm.image, hm.listing, HexListing.ofWords, hline]
  rfl

namespace Work

/-- What is left to do of a compilation when the program has been loaded. -/
def keep (job : Compilation) (memory : Memory) : Work Unit := do
  let some output := job.output | throw .namelessOutput
  writeFile output (image job memory)
  note .info .toolkit
    [s!"Wrote {memory.length} word(s) -> {String.ofList output.text}"]

end Work

/-! ## Requests and command lines -/

end IttyBitty.CommandLine
