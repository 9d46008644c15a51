import Highlight.Audit.Report
import Highlight.Audit.Run
import Highlight.Check.Outcome
import Highlight.Check.Run
import Highlight.Check.Summary
import Highlight.Cli.Arguments
import Highlight.Cli.Elapsed
import Highlight.Cli.Report
import Highlight.Files.Discovery
import Highlight.Files.Path
import Highlight.Files.Tree
import Highlight.Fixture.Assertions
import Highlight.Fixture.Line
import Highlight.Fixture.LineStarts
import Highlight.Grammar.Candidates
import Highlight.Grammar.Compile
import Highlight.Grammar.Error
import Highlight.Grammar.Layout
import Highlight.Grammar.Reachable
import Highlight.Grammar.Reading
import Highlight.Grammar.Rule
import Highlight.Grammar.Source
import Highlight.Grammar.Weight
import Highlight.Highlighter.Captures
import Highlight.Highlighter.Choice
import Highlight.Highlighter.Load
import Highlight.Highlighter.Scan
import Highlight.Highlighter.State
import Highlight.Highlighter.Tokenize
import Highlight.Json.Reader
import Highlight.Json.Value
import Highlight.Main
import Highlight.Painting
import Highlight.Proofs.Anchors
import Highlight.Proofs.AuditCoverage
import Highlight.Proofs.BackReference
import Highlight.Proofs.Bytes
import Highlight.Proofs.CaptureOrder
import Highlight.Proofs.CapturedBytes
import Highlight.Proofs.Carets
import Highlight.Proofs.CharRuns
import Highlight.Proofs.ClosedRules
import Highlight.Proofs.Compiled
import Highlight.Proofs.Composition
import Highlight.Proofs.Conditions
import Highlight.Proofs.Counting
import Highlight.Proofs.Coverage
import Highlight.Proofs.Delimiters
import Highlight.Proofs.Depth
import Highlight.Proofs.Disabled
import Highlight.Proofs.Discipline
import Highlight.Proofs.Embedding
import Highlight.Proofs.Emptied
import Highlight.Proofs.Endless
import Highlight.Proofs.Expansion
import Highlight.Proofs.Faults
import Highlight.Proofs.Fixtures
import Highlight.Proofs.GrammarTexts
import Highlight.Proofs.InPlace
import Highlight.Proofs.Insertion
import Highlight.Proofs.JsonScalars
import Highlight.Proofs.JsonTexts
import Highlight.Proofs.Judgement
import Highlight.Proofs.Layout
import Highlight.Proofs.LexicalScope
import Highlight.Proofs.LineText
import Highlight.Proofs.Lines
import Highlight.Proofs.Listings
import Highlight.Proofs.LiteralPatterns
import Highlight.Proofs.Literals
import Highlight.Proofs.LoopGuard
import Highlight.Proofs.Lossless
import Highlight.Proofs.MarkerLines
import Highlight.Proofs.Marks
import Highlight.Proofs.NestedRules
import Highlight.Proofs.Nesting
import Highlight.Proofs.Numbering
import Highlight.Proofs.Occurrences
import Highlight.Proofs.Offsets
import Highlight.Proofs.PaintLaw
import Highlight.Proofs.Passages
import Highlight.Proofs.PathOrder
import Highlight.Proofs.Places
import Highlight.Proofs.PlainNames
import Highlight.Proofs.Positions
import Highlight.Proofs.Preference
import Highlight.Proofs.Records
import Highlight.Proofs.References
import Highlight.Proofs.Renumbering
import Highlight.Proofs.Reordering
import Highlight.Proofs.Results
import Highlight.Proofs.RootScopes
import Highlight.Proofs.Runs
import Highlight.Proofs.ScopeNames
import Highlight.Proofs.ScopeOrder
import Highlight.Proofs.Scopeless
import Highlight.Proofs.Seen
import Highlight.Proofs.Segments
import Highlight.Proofs.Selection
import Highlight.Proofs.SelfIncluding
import Highlight.Proofs.Sight
import Highlight.Proofs.Slices
import Highlight.Proofs.Step
import Highlight.Proofs.Strokes
import Highlight.Proofs.Substitution
import Highlight.Proofs.Tallies
import Highlight.Proofs.Templates
import Highlight.Proofs.Tiling
import Highlight.Proofs.Trimming
import Highlight.Proofs.VisibleFiles
import Highlight.Proofs.WholeMatches
import Highlight.Regex.CharSet
import Highlight.Regex.ClassReader
import Highlight.Regex.Engine
import Highlight.Regex.Error
import Highlight.Regex.Escape
import Highlight.Regex.Literal
import Highlight.Regex.Matching
import Highlight.Regex.Plan
import Highlight.Regex.Reader
import Highlight.Regex.Search
import Highlight.Regex.Spelling
import Highlight.Regex.Syntax
import Highlight.Scope.Found
import Highlight.Scope.Template
import Highlight.Span
import Highlight.Text.Digits
import Highlight.Text.Lines
import Highlight.Text.Offsets
import Highlight.Text.Quoted
import Highlight.Text.Search
import Highlight.Text.Words
import Highlight.Token
import Highlight.Unicode.Blank
import Highlight.Unicode.CaseMap
import Highlight.Unicode.CaseRun
import Highlight.Unicode.FlipTable
import Highlight.Unicode.Folding
import Highlight.Unicode.Letters
