import OnePass.Files.Tree
import OnePass.Main
import OnePass.Proofs.Grammar.Announcement
import OnePass.Proofs.Parser.Outcome
import OnePass.Proofs.Grammar.Boundary
import OnePass.Proofs.Parser.Reading.Expression
import OnePass.Proofs.Parser.Reading.Statement
import OnePass.Proofs.Parser.Reading.Program
import OnePass.Proofs.Grammar.Unambiguous
import OnePass.Proofs.Grammar.Reductions
import OnePass.Proofs.Parser.Recognition
import OnePass.Proofs.Parser.Protocol
import OnePass.Proofs.Analysis.Safety
import OnePass.Proofs.Parser.Lockstep
import OnePass.Proofs.Parser.Independence
import OnePass.Proofs.Analysis.ByteLiteral
import OnePass.Proofs.Analysis.Typing
import OnePass.Proofs.Analysis.Judgement
import OnePass.Proofs.Symbols.Functions
import OnePass.Proofs.Analysis.Adequacy
import OnePass.Proofs.Analysis.Situation
import OnePass.Proofs.Analysis.Movement
import OnePass.Proofs.Parser.EventOrder
import OnePass.Proofs.Analysis.Invariant
import OnePass.Proofs.Analysis.Composition
import OnePass.Proofs.Source.Lines
import OnePass.Proofs.Source.FeedCount
import OnePass.Proofs.Token.LongestMatch
import OnePass.Proofs.Token.Tiling
import OnePass.Proofs.Parser.Concatenation
import OnePass.Proofs.Token.Pattern
import OnePass.Proofs.Analysis.Correspondence
import OnePass.Proofs.Analysis.Layout
import OnePass.Proofs.Analysis.Renaming
import OnePass.Proofs.Grammar.Partition
import OnePass.Proofs.Analysis.Reordering
import OnePass.Proofs.Analysis.Narrowing
import OnePass.Proofs.Token.Printing
import OnePass.Proofs.Token.LineByLine
import OnePass.Proofs.Analysis.Confinement
import OnePass.Proofs.Analysis.Frame
import OnePass.Proofs.Grammar.Sentence
import OnePass.Proofs.Parser.Misfit
import OnePass.Proofs.Analysis.Location
import OnePass.Proofs.Analysis.ReportedLine
import OnePass.Proofs.Symbols.History
import OnePass.Proofs.Analysis.Replay
import OnePass.Proofs.Analysis.InPlace
import OnePass.Proofs.Analysis.Misuse
import OnePass.Proofs.Grammar.Script
import OnePass.Proofs.Parser.Scripted.Basic
import OnePass.Proofs.Parser.Scripted.Expression
import OnePass.Proofs.Parser.Scripted.Statement
import OnePass.Proofs.Parser.Scripted.Program
import OnePass.Proofs.Symbols.Attempts
import OnePass.Proofs.Analysis.Formals
import OnePass.Proofs.Analysis.Refusal
import OnePass.Proofs.Analysis.Quotation
import OnePass.Proofs.Check.Framing
import OnePass.Proofs.Check.Decoding
import OnePass.Proofs.Files.Places
import OnePass.Proofs.Config.Search
import OnePass.Proofs.Config.Stability
import OnePass.Proofs.CommandLine.Checking
