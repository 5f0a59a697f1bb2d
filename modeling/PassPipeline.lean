import PassPipeline.Main
import PassPipeline.Proofs.Outcome
import PassPipeline.Proofs.Scripted
import PassPipeline.Proofs.Pervasive
import PassPipeline.Proofs.WindowPart
import PassPipeline.Proofs.WindowLaw
import PassPipeline.Proofs.Analysis
import PassPipeline.Proofs.PassOrder
import PassPipeline.Proofs.SteadyBuild
import PassPipeline.Proofs.BundledBuild
import PassPipeline.Proofs.SessionUse
import PassPipeline.Proofs.Refusal
import PassPipeline.Proofs.SelectionHistory
import PassPipeline.Proofs.Immutability
import PassPipeline.Proofs.Unfolding
import PassPipeline.Proofs.Expansion
import PassPipeline.Proofs.Diagnostics
import PassPipeline.Proofs.Louder
import PassPipeline.Proofs.Transparency
import PassPipeline.Proofs.Course
import PassPipeline.Proofs.RegisterAllocation
import PassPipeline.Proofs.Disabling
import PassPipeline.Proofs.TargetOrder
import PassPipeline.Proofs.Running
import PassPipeline.Proofs.Schedules
import PassPipeline.Proofs.Levels
import PassPipeline.Proofs.Registration
import PassPipeline.Proofs.Recursion
import PassPipeline.Proofs.InsertionCycles
import PassPipeline.Proofs.FalseAlarms
import PassPipeline.Proofs.Passage
import PassPipeline.Proofs.OrderCheck
import PassPipeline.Proofs.Substitution
import PassPipeline.Proofs.PrintAfter
import PassPipeline.Proofs.Execution
import PassPipeline.Proofs.Lines
import PassPipeline.Proofs.Printouts
import PassPipeline.Proofs.Agenda
import PassPipeline.Proofs.Thinning
import PassPipeline.Proofs.Features
import PassPipeline.Proofs.Decoding
import PassPipeline.Proofs.Escaping
import PassPipeline.Proofs.Words
import PassPipeline.Proofs.Reports
import PassPipeline.Proofs.Switches
import PassPipeline.Proofs.ArgumentFiles
import PassPipeline.Proofs.Discovery
import PassPipeline.Proofs.Identifiers
