import IttyBitty.Assembly.Listing
import IttyBitty.CommandLine.Run
import IttyBitty.Debugger.Basic
import IttyBitty.Ibcmc.Outline
import IttyBitty.Ibcmc.Parser
import IttyBitty.Main
import IttyBitty.Memory.Binary
import IttyBitty.Memory.Dump
import IttyBitty.Memory.HexListing
import IttyBitty.Proofs.Machine.Effects
import IttyBitty.Proofs.Machine.Table
import IttyBitty.Proofs.Stream.Reading
import IttyBitty.Proofs.Text.Hexadecimal
import IttyBitty.Proofs.Text.Trimming
import IttyBitty.Proofs.Word.Arithmetic
import IttyBitty.Proofs.Machine.Refinement
import IttyBitty.Proofs.Machine.FaultAtomicity
import IttyBitty.Proofs.Assembly.Grammar
import IttyBitty.Proofs.Instruction.Encoding
import IttyBitty.Proofs.Assembly.FirstPass
import IttyBitty.Proofs.Assembly.Correctness
import IttyBitty.Proofs.Memory.Formats
import IttyBitty.Proofs.CommandLine.Loading
import IttyBitty.Proofs.Files.Writing
import IttyBitty.Proofs.CommandLine.Arguments
import IttyBitty.Proofs.CommandLine.Routes
import IttyBitty.Proofs.Ibcmc.Lexemes
import IttyBitty.Proofs.Ibcmc.Scanning
import IttyBitty.Proofs.Assembly.Amounts
import IttyBitty.Proofs.Assembly.Faults
import IttyBitty.Proofs.Assembly.FirstFault
import IttyBitty.Proofs.Assembly.Reporting
import IttyBitty.Proofs.Machine.Confinement
import IttyBitty.Proofs.Machine.Reachable
import IttyBitty.Proofs.Ibcmc.Grammar
import IttyBitty.Proofs.Ibcmc.Parsing
import IttyBitty.Proofs.Ibcmc.Programs
import IttyBitty.Proofs.Machine.Steps
import IttyBitty.Proofs.Machine.Composition
import IttyBitty.Proofs.Machine.Twins
import IttyBitty.Proofs.Machine.Switches
import IttyBitty.Proofs.Debugger.Driving
import IttyBitty.Proofs.Debugger.Demands
import IttyBitty.Proofs.Assembly.Extension
import IttyBitty.Proofs.Debugger.Shell
import IttyBitty.Proofs.CommandLine.Results
import IttyBitty.Proofs.CommandLine.Endings
import IttyBitty.Proofs.Assembly.Spacing
import IttyBitty.Proofs.Assembly.Layout
import IttyBitty.Proofs.Assembly.Succession
import IttyBitty.Proofs.CommandLine.Sparing
import IttyBitty.Proofs.CommandLine.Compiling
import IttyBitty.Proofs.Machine.Answers
import IttyBitty.Proofs.Debugger.Outcomes
import IttyBitty.Proofs.Debugger.Conversation
import IttyBitty.Proofs.Ibcmc.Limits
import IttyBitty.Proofs.Ibcmc.Places
import IttyBitty.Proofs.Ibcmc.Concatenation
import IttyBitty.Proofs.Ibcmc.Layout
import IttyBitty.Proofs.Ibcmc.Automaton
import IttyBitty.Proofs.Ibcmc.Tracking
import IttyBitty.Proofs.Ibcmc.FirstImpossible
import IttyBitty.Proofs.Assembly.Listing
import IttyBitty.Proofs.CommandLine.Logging
import IttyBitty.Proofs.CommandLine.Listing
import IttyBitty.Proofs.Memory.Listings
import IttyBitty.Proofs.Ibcmc.Lines
import IttyBitty.Proofs.Ibcmc.Labels
import IttyBitty.Proofs.Ibcmc.Outlines
import IttyBitty.Proofs.Memory.Images
import IttyBitty.Proofs.Memory.Histories
import IttyBitty.Proofs.Machine.Transcripts
import IttyBitty.Proofs.Text.WellFormed
import IttyBitty.Proofs.CommandLine.Sources
import IttyBitty.Proofs.Instruction.Reduction
import IttyBitty.Proofs.Debugger.JumpChain
import IttyBitty.Proofs.Ibcmc.Resumption
import IttyBitty.Proofs.Ibcmc.Cursor
import IttyBitty.Proofs.Ibcmc.Termination
import IttyBitty.Proofs.Word.Laws
import IttyBitty.Proofs.Samples.Rules
import IttyBitty.Proofs.Samples.Echo
import IttyBitty.Proofs.Samples.Product
import IttyBitty.Proofs.Samples.Sum
import IttyBitty.Proofs.Text.Lines
import IttyBitty.Proofs.Assembly.Numbering
import IttyBitty.Proofs.Memory.Tiling
