import CallPlan.Main
import CallPlan.Plan.Verdict
import CallPlan.Proofs.Assignability
import CallPlan.Proofs.Attribution
import CallPlan.Proofs.Availability
import CallPlan.Proofs.BlockTexts
import CallPlan.Proofs.Blocks
import CallPlan.Proofs.Building
import CallPlan.Proofs.CatalogFiles
import CallPlan.Proofs.ClassBodies
import CallPlan.Proofs.Completeness
import CallPlan.Proofs.Conformance
import CallPlan.Proofs.CountedTypes
import CallPlan.Proofs.Counting
import CallPlan.Proofs.Digits
import CallPlan.Proofs.Drafts
import CallPlan.Proofs.Enumeration
import CallPlan.Proofs.Evaluation
import CallPlan.Proofs.Execution
import CallPlan.Proofs.FileTree
import CallPlan.Proofs.Fitting
import CallPlan.Proofs.Generation
import CallPlan.Proofs.Growth
import CallPlan.Proofs.Histories
import CallPlan.Proofs.Inspection
import CallPlan.Proofs.LeadingComments
import CallPlan.Proofs.Legibility
import CallPlan.Proofs.Lexemes
import CallPlan.Proofs.LineEnds
import CallPlan.Proofs.Lines
import CallPlan.Proofs.LiteralReading
import CallPlan.Proofs.Lookups
import CallPlan.Proofs.Members
import CallPlan.Proofs.Memory
import CallPlan.Proofs.NameGrammar
import CallPlan.Proofs.NameReading
import CallPlan.Proofs.Nesting
import CallPlan.Proofs.Numbering
import CallPlan.Proofs.Overloads
import CallPlan.Proofs.Parts
import CallPlan.Proofs.Paths
import CallPlan.Proofs.Permission
import CallPlan.Proofs.PlanCount
import CallPlan.Proofs.PlanReadings
import CallPlan.Proofs.PlanTree
import CallPlan.Proofs.Plans
import CallPlan.Proofs.Readings
import CallPlan.Proofs.Receivers
import CallPlan.Proofs.Records
import CallPlan.Proofs.Samples
import CallPlan.Proofs.Search
import CallPlan.Proofs.Shadowing
import CallPlan.Proofs.Sharing
import CallPlan.Proofs.SourceReader
import CallPlan.Proofs.SourceTexts
import CallPlan.Proofs.Spread
import CallPlan.Proofs.Statements
import CallPlan.Proofs.Steps
import CallPlan.Proofs.Subtyping
import CallPlan.Proofs.Tally
import CallPlan.Proofs.TestClasses
import CallPlan.Proofs.Tiling
import CallPlan.Proofs.TypeNames
import CallPlan.Proofs.TypeReading
import CallPlan.Proofs.Verdicts
import CallPlan.Proofs.WellNested
import CallPlan.Proofs.Words
import CallPlan.Proofs.Workers
import CallPlan.Run.FileTree
