import TypedMarkup.Environment
import TypedMarkup.Environment.Cascade
import TypedMarkup.Environment.Preamble
import TypedMarkup.Error
import TypedMarkup.Expansion
import TypedMarkup.Expansion.Stock
import TypedMarkup.Limits
import TypedMarkup.Limits.Search
import TypedMarkup.Name
import TypedMarkup.Output
import TypedMarkup.ParseError
import TypedMarkup.Proofs.Checks
import TypedMarkup.Proofs.EndAlike
import TypedMarkup.Proofs.Ends
import TypedMarkup.Proofs.Environment.Alike
import TypedMarkup.Proofs.Environment.Beside
import TypedMarkup.Proofs.Environment.Bindings
import TypedMarkup.Proofs.Environment.Cascade
import TypedMarkup.Proofs.Environment.Declarations
import TypedMarkup.Proofs.Environment.Includes
import TypedMarkup.Proofs.Environment.Newest
import TypedMarkup.Proofs.Environment.Overlay
import TypedMarkup.Proofs.Environment.Rebinding
import TypedMarkup.Proofs.Grammar.Blanks
import TypedMarkup.Proofs.Grammar.Breaks
import TypedMarkup.Proofs.Grammar.BreaksBlock
import TypedMarkup.Proofs.Grammar.BreaksProperty
import TypedMarkup.Proofs.Grammar.Comments
import TypedMarkup.Proofs.Grammar.Finishes
import TypedMarkup.Proofs.Grammar.Keeps
import TypedMarkup.Proofs.Grammar.Language
import TypedMarkup.Proofs.Grammar.Lexeme
import TypedMarkup.Proofs.Grammar.Lexes
import TypedMarkup.Proofs.Grammar.LexesBlock
import TypedMarkup.Proofs.Grammar.LexesProperty
import TypedMarkup.Proofs.Grammar.LineEnds
import TypedMarkup.Proofs.Grammar.Renders
import TypedMarkup.Proofs.Grammar.RendersBlock
import TypedMarkup.Proofs.Grammar.RendersProperty
import TypedMarkup.Proofs.Grammar.RendersText
import TypedMarkup.Proofs.Grammar.Rules
import TypedMarkup.Proofs.Grammar.Spells
import TypedMarkup.Proofs.Grammar.SpellsBlock
import TypedMarkup.Proofs.Grammar.SpellsProperty
import TypedMarkup.Proofs.Grammar.Termination
import TypedMarkup.Proofs.Grammar.Transfers
import TypedMarkup.Proofs.Grammar.ViablePrefixes
import TypedMarkup.Proofs.Grammar.Writes
import TypedMarkup.Proofs.Grammar.Yields
import TypedMarkup.Proofs.Grammar.YieldsBlock
import TypedMarkup.Proofs.Limits.Search
import TypedMarkup.Proofs.Limits.Settings
import TypedMarkup.Proofs.Reader.FileTable
import TypedMarkup.Proofs.Registry.Arena
import TypedMarkup.Proofs.Registry.Built
import TypedMarkup.Proofs.Registry.Faults
import TypedMarkup.Proofs.Registry.Forest
import TypedMarkup.Proofs.Registry.Numbering
import TypedMarkup.Proofs.Registry.Outline
import TypedMarkup.Proofs.Registry.Paths
import TypedMarkup.Proofs.Resolution.Alike
import TypedMarkup.Proofs.Resolution.Blame
import TypedMarkup.Proofs.Resolution.Calls
import TypedMarkup.Proofs.Resolution.Distribution
import TypedMarkup.Proofs.Resolution.IncludeBound
import TypedMarkup.Proofs.Resolution.IncludeChain
import TypedMarkup.Proofs.Resolution.Leaves
import TypedMarkup.Proofs.Resolution.Lines
import TypedMarkup.Proofs.Resolution.Paragraphs
import TypedMarkup.Proofs.Resolution.RunEnds
import TypedMarkup.Proofs.Resolution.Scope
import TypedMarkup.Proofs.Resolution.Shown
import TypedMarkup.Proofs.Resolution.Termination
import TypedMarkup.Proofs.Resolution.Unseen
import TypedMarkup.Proofs.Resolution.WellTyped
import TypedMarkup.Proofs.Source.Calls
import TypedMarkup.Proofs.Source.Closing
import TypedMarkup.Proofs.Source.Fronts
import TypedMarkup.Proofs.Source.Gaps
import TypedMarkup.Proofs.Source.Places
import TypedMarkup.Proofs.Source.Reach
import TypedMarkup.Proofs.Token.Agrees
import TypedMarkup.Proofs.Token.AgreesBlock
import TypedMarkup.Proofs.Token.AgreesProperty
import TypedMarkup.Proofs.Token.AgreesText
import TypedMarkup.Proofs.Token.Cuts
import TypedMarkup.Proofs.Token.CutsBlock
import TypedMarkup.Proofs.Token.CutsProperty
import TypedMarkup.Proofs.Token.Deeper
import TypedMarkup.Proofs.Token.Escaping
import TypedMarkup.Proofs.Token.Highlight
import TypedMarkup.Proofs.Token.Lines
import TypedMarkup.Proofs.Token.Loops
import TypedMarkup.Proofs.Token.Mark
import TypedMarkup.Proofs.Token.Nesting
import TypedMarkup.Proofs.Token.Partition
import TypedMarkup.Proofs.Token.Recursion
import TypedMarkup.Proofs.Token.Run
import TypedMarkup.Proofs.Token.Spelling
import TypedMarkup.Proofs.Token.Step
import TypedMarkup.Proofs.Token.Tokenize
import TypedMarkup.Proofs.Tree.Bodies
import TypedMarkup.Proofs.Tree.Carried
import TypedMarkup.Proofs.Tree.Deeper
import TypedMarkup.Proofs.Tree.Diagnostics
import TypedMarkup.Proofs.Tree.Leaves
import TypedMarkup.Proofs.Tree.Loops
import TypedMarkup.Proofs.Tree.Part
import TypedMarkup.Proofs.Tree.Reads
import TypedMarkup.Proofs.Tree.ReadsBlock
import TypedMarkup.Proofs.Tree.ReadsProperty
import TypedMarkup.Proofs.Tree.Recursion
import TypedMarkup.Proofs.Tree.Relabel
import TypedMarkup.Proofs.Tree.Signs
import TypedMarkup.Proofs.Tree.WellFormed
import TypedMarkup.Reader.FileTable
import TypedMarkup.Registry
import TypedMarkup.Registry.Declaration
import TypedMarkup.Registry.NodeType
import TypedMarkup.Resolution
import TypedMarkup.Resolution.Grouping
import TypedMarkup.Source.Position
import TypedMarkup.Source.Trivia
import TypedMarkup.Table
import TypedMarkup.Text.Hidden
import TypedMarkup.Text.Shown
import TypedMarkup.Text.Split
import TypedMarkup.Token
import TypedMarkup.Token.Lexer
import TypedMarkup.Token.Lexer.Block
import TypedMarkup.Token.Lexer.Property
import TypedMarkup.Token.Lines
import TypedMarkup.Tree
import TypedMarkup.Tree.Parser
import TypedMarkup.Tree.Parser.Block
import TypedMarkup.Tree.Parser.Property
