import IttyBitty.Proofs.CommandLine.Loading
import IttyBitty.Proofs.Text.WellFormed

/-!
# Texts and their bytes

A program can be given as a text or as bytes. The bytes of a text are as good as the text:
assembling them, or loading them as a listing, comes to the same. Bytes that are no text are
refused before anything is made of them, with the place of their first ill-formed sequence
(`CommandLine.bytes_agree`).
-/

namespace IttyBitty

open Utf8 (encode BreaksAt)

theorem Source.decode_encode (t : Text) :
    Source.decode (.bytes (encode t)) = Source.decode (.text t) :=
  Utf8.decode_encode t

/-- What is said of an ill-formed source names the offset of its fault. -/
theorem Source.unreadableMessage_eq (fault : Utf8.Fault) :
    ∃ what why : String, Source.unreadableMessage fault =
      s!"could not read line: {what} in position {fault.offset}{why}" := by
  unfold Source.unreadableMessage Utf8.Fault.message
  by_cases hsize : fault.size = 1
  · have hwhat : "'utf-8' codec can't decode byte 0x"
        = "'utf-8' codec can't decode " ++ "byte 0x" := rfl
    refine ⟨s!"'utf-8' codec can't decode byte 0x{String.ofList (Hex.byte fault.first)}",
      s!": {fault.reason.message}", ?_⟩
    simp only [if_pos hsize, hwhat, toString, String.append_assoc]
  · have hwhat : "'utf-8' codec can't decode bytes"
        = "'utf-8' codec can't decode " ++ "bytes" := rfl
    have hplace : "bytes in position " = "bytes" ++ " in position " := rfl
    refine ⟨"'utf-8' codec can't decode bytes",
      s!"-{fault.offset + fault.size - 1}: {fault.reason.message}", ?_⟩
    simp only [if_neg hsize, hwhat, hplace, toString, String.append_assoc]

namespace CommandLine

/-- The memory of a listing that is given as a source: all of it is decoded before a line is
looked at. -/
def listed (source : Source) : Except Failure Memory := do
  let t ← source.decode.mapError .unreadable
  (HexListing.load t).mapError .hexListing

/-- The command line loads listings from their bytes. -/
theorem listed_bytes (bytes : List UInt8) :
    listed (.bytes bytes) = memoryOf .hexListing bytes := rfl

/-- **Bytes are read as the text that they encode**, or not at all. -/
theorem bytes_agree (a : Assembly.Assembler) :
    (∀ t : Text,
      a.assemble (.bytes (encode t)) = a.assemble (.text t) ∧
        listed (.bytes (encode t)) = listed (.text t)) ∧
    (∀ bytes : List UInt8, (∀ t, encode t ≠ bytes) →
      ∃ fault, BreaksAt bytes fault.offset ∧
        a.assemble (.bytes bytes) = (a, .error (.unreadable fault)) ∧
        listed (.bytes bytes) = .error (.unreadable fault) ∧
        ∃ what why : String, Source.unreadableMessage fault =
          s!"could not read line: {what} in position {fault.offset}{why}") := by
  constructor
  · intro t
    have hdecode := Source.decode_encode t
    constructor
    · rw [Assembly.Assembler.assemble, Assembly.Assembler.assemble, hdecode]
    · rw [listed, listed, hdecode]
  · intro bytes hill
    obtain ⟨fault, hdecode, hbreaks⟩ := Utf8.decode_of_ill_formed hill
    have hsource : Source.decode (.bytes bytes) = .error fault := hdecode
    refine ⟨fault, hbreaks, ?_, ?_, Source.unreadableMessage_eq fault⟩
    · rw [Assembly.Assembler.assemble, hsource]
    · rw [listed, hsource]
      rfl

/-- An overlong sequence in a comment, behind a line that would be an error itself. -/
theorem bytes_agree_overlong :
    let bytes := encode "bogus\n// ".toList ++ [0xC0, 0xAF, 0x0A]
    (∀ t, encode t ≠ bytes) ∧
      ∃ fault, fault.offset = 9 ∧ BreaksAt bytes fault.offset ∧
        Assembly.assemble (.bytes bytes) = .error (.unreadable fault) ∧
        listed (.bytes bytes) = .error (.unreadable fault) := by
  intro bytes
  have hfault : Utf8.decode bytes = .error ⟨9, 0xC0, 1, .invalidStart⟩ := rfl
  have hill : ∀ t, encode t ≠ bytes := by
    intro t h
    have hdecode := Utf8.decode_encode t
    rw [h, hfault] at hdecode
    cases hdecode
  obtain ⟨fault, hbreaks, hassemble, hlisted, -⟩ := (bytes_agree {}).2 bytes hill
  have hoffset : fault.offset = 9 := by
    have hdirect : listed (.bytes bytes) = .error (.unreadable ⟨9, 0xC0, 1, .invalidStart⟩) := rfl
    rw [hdirect] at hlisted
    cases hlisted
    rfl
  exact ⟨hill, fault, hoffset, hbreaks, congrArg Prod.snd hassemble, hlisted⟩

end CommandLine

end IttyBitty
