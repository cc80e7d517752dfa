import Scangen.Automaton.Dfa
import Scangen.Automaton.Graph
import Scangen.Automaton.Minimal
import Scangen.Automaton.Nfa
import Scangen.Automaton.Path
import Scangen.Automaton.Rules
import Scangen.Automaton.Subset
import Scangen.Automaton.Tag
import Scangen.Automaton.Thompson
import Scangen.Automaton.WellFormed
import Scangen.Build
import Scangen.Diagnostic
import Scangen.Finite.Distinct
import Scangen.Finite.IndexSet
import Scangen.Finite.Search
import Scangen.Finite.Total
import Scangen.Generated.Arrays
import Scangen.Generated.Code
import Scangen.Generated.Evaluation
import Scangen.Generated.Grammar
import Scangen.Generated.Lookup
import Scangen.Generated.Module
import Scangen.Generated.Reading
import Scangen.Generated.Variants
import Scangen.Main
import Scangen.Options
import Scangen.Partition
import Scangen.Pattern.Basic
import Scangen.Pattern.Computed
import Scangen.Pattern.Error
import Scangen.Pattern.Escape
import Scangen.Pattern.Language
import Scangen.Pattern.Length
import Scangen.Pattern.Reader
import Scangen.Pattern.Regex
import Scangen.Pattern.Writer
import Scangen.Program.Arguments
import Scangen.Program.Command
import Scangen.Program.Files
import Scangen.Program.Path
import Scangen.Program.Run
import Scangen.Proofs.Automaton.Blocks
import Scangen.Proofs.Automaton.Builders
import Scangen.Proofs.Automaton.Canonical
import Scangen.Proofs.Automaton.Closed
import Scangen.Proofs.Automaton.Copies
import Scangen.Proofs.Automaton.Expressions
import Scangen.Proofs.Automaton.Faithful
import Scangen.Proofs.Automaton.Formed
import Scangen.Proofs.Automaton.Fragments
import Scangen.Proofs.Automaton.Futures
import Scangen.Proofs.Automaton.Labels
import Scangen.Proofs.Automaton.Languages
import Scangen.Proofs.Automaton.Least
import Scangen.Proofs.Automaton.Live
import Scangen.Proofs.Automaton.Minimal
import Scangen.Proofs.Automaton.Paths
import Scangen.Proofs.Automaton.Patterns
import Scangen.Proofs.Automaton.Problems
import Scangen.Proofs.Automaton.Rules
import Scangen.Proofs.Automaton.Sets
import Scangen.Proofs.Automaton.Subset
import Scangen.Proofs.Build.Appended
import Scangen.Proofs.Build.Best
import Scangen.Proofs.Build.Binary
import Scangen.Proofs.Build.Candidates
import Scangen.Proofs.Build.Contexts
import Scangen.Proofs.Build.Defects
import Scangen.Proofs.Build.Hidden
import Scangen.Proofs.Build.Isolation
import Scangen.Proofs.Build.Lexemes
import Scangen.Proofs.Build.Offers
import Scangen.Proofs.Build.Options
import Scangen.Proofs.Build.Ordered
import Scangen.Proofs.Build.Oversized
import Scangen.Proofs.Build.Readings
import Scangen.Proofs.Build.Reports
import Scangen.Proofs.Build.Returned
import Scangen.Proofs.Build.Shadowed
import Scangen.Proofs.Build.Stages
import Scangen.Proofs.Build.Timely
import Scangen.Proofs.Build.Tokens
import Scangen.Proofs.Build.WellFormed
import Scangen.Proofs.Build.Winners
import Scangen.Proofs.Finite.Flatten
import Scangen.Proofs.Finite.Numbering
import Scangen.Proofs.Finite.Search
import Scangen.Proofs.Finite.Traversal
import Scangen.Proofs.Partition.Canonical
import Scangen.Proofs.Partition.Classes
import Scangen.Proofs.Partition.Intervals
import Scangen.Proofs.Partition.Unions
import Scangen.Proofs.Pattern.Computed
import Scangen.Proofs.Pattern.Lengths
import Scangen.Proofs.Pattern.Read
import Scangen.Proofs.Pattern.Related
import Scangen.Proofs.Pattern.Rigid
import Scangen.Proofs.Pattern.Uniform
import Scangen.Proofs.Pattern.Words
import Scangen.Proofs.Scan.Longest
import Scangen.Proofs.Scan.Ranking
import Scangen.Proofs.Scan.Simulation
import Scangen.Proofs.Scan.Tiling
import Scangen.Proofs.Scan.Trace
import Scangen.Proofs.Symbol.Letters
import Scangen.Proofs.Symbol.Resolve
import Scangen.Proofs.Table.Checks
import Scangen.Proofs.Table.ClassMap
import Scangen.Proofs.Table.Codec
import Scangen.Proofs.Table.Compression
import Scangen.Proofs.Table.Decoded
import Scangen.Proofs.Table.Order
import Scangen.Proofs.Table.Rows
import Scangen.Proofs.Table.Sizes
import Scangen.Proofs.Table.Transitions
import Scangen.Proofs.Table.Computed
import Scangen.Proofs.Table.Read
import Scangen.Proofs.Table.Valid
import Scangen.Proofs.Table.Words
import Scangen.Scan.Defects
import Scangen.Scan.Meaning
import Scangen.Scan.Recognizer
import Scangen.Scan.Scanner
import Scangen.Scan.Trace
import Scangen.Spec.Basic
import Scangen.Spec.Definition
import Scangen.Spec.Writer
import Scangen.Symbol.Alphabet
import Scangen.Symbol.CaseFold
import Scangen.Symbol.CaseTable
import Scangen.Symbol.Charset
import Scangen.Symbol.Computed
import Scangen.Symbol.Range
import Scangen.Symbol.Set
import Scangen.Table.Basic
import Scangen.Table.Binary
import Scangen.Table.Bytes
import Scangen.Table.ClassMap
import Scangen.Table.Computed
import Scangen.Table.Document
import Scangen.Table.Row
import Scangen.Table.Stored
import Scangen.Table.Transitions
import Scangen.Text.Blank
import Scangen.Text.CaseContext
import Scangen.Text.CharRuns
import Scangen.Text.Cluster
import Scangen.Text.ClusterRole
import Scangen.Text.Digraph
import Scangen.Text.Extender
import Scangen.Text.Hidden
import Scangen.Text.Json
import Scangen.Text.LetterCase
import Scangen.Text.Lines
import Scangen.Text.Numeral
import Scangen.Text.PascalCase
import Scangen.Text.Quoted
import Scangen.Automaton.Checked
import Scangen.Proofs.Automaton.Checked
import Scangen.Proofs.Generated.Arrays
import Scangen.Proofs.Generated.Evaluation
import Scangen.Proofs.Generated.Functions
import Scangen.Proofs.Generated.Items
import Scangen.Proofs.Generated.Lines
import Scangen.Proofs.Generated.Faithful
import Scangen.Proofs.Generated.Lookup
import Scangen.Proofs.Generated.Read
import Scangen.Proofs.Generated.Values
import Scangen.Proofs.Partition.Reported
import Scangen.Proofs.Table.Pages
import Scangen.Proofs.Generated.Variants
import Scangen.Proofs.Generated.Keywords
import Scangen.Proofs.Text.PascalCase
import Scangen.Proofs.Text.Numeral
import Scangen.Proofs.Spec.Definition
import Scangen.Proofs.Pattern.WellFormed
import Scangen.Proofs.Pattern.Written
import Scangen.Proofs.Pattern.Composed
import Scangen.Proofs.Spec.Lines
import Scangen.Proofs.Spec.Written
import Scangen.Proofs.Build.Endings
import Scangen.Spec.Calls
import Scangen.Proofs.Spec.Calls
import Scangen.Symbol.Passes
import Scangen.Proofs.Symbol.Passes
import Scangen.Proofs.Symbol.Combinations
import Scangen.Symbol.Forms
import Scangen.Symbol.CaseChain
import Scangen.Proofs.Symbol.CaseRuns
import Scangen.Proofs.Symbol.Folding
import Scangen.Proofs.Symbol.CaseChains
import Scangen.Proofs.Build.Spellings
import Scangen.Proofs.Symbol.Sizes
