import PagedAsm.Text.RangeTable
import PagedAsm.Text.Letter
import PagedAsm.Text.Digit
import PagedAsm.Text.Printable
import PagedAsm.Text.Blank
import PagedAsm.Text.Utf8
import PagedAsm.Text.Quoted
import PagedAsm.Text.Numeral
import PagedAsm.Source.Span
import PagedAsm.Source.Line
import PagedAsm.Limits
import PagedAsm.Diagnostic
import PagedAsm.Scanner.Basic
import PagedAsm.Scanner.Rules
import PagedAsm.Stack
import PagedAsm.Syntax.Token
import PagedAsm.Syntax.Lexer
import PagedAsm.Syntax.StringLiteral
import PagedAsm.Syntax.Tree
import PagedAsm.InstructionSet.Basic
import PagedAsm.Program
import PagedAsm.Image.Word
import PagedAsm.Image.File
import PagedAsm.Assembly.Atom
import PagedAsm.Assembly.Bindings
import PagedAsm.Assembly.Macro
import PagedAsm.Assembly.Session
import PagedAsm.Assembly.Discovery
import PagedAsm.Assembly.Loop
import PagedAsm.Assembly.Expansion
import PagedAsm.Assembly.Typing
import PagedAsm.Assembly.Peephole
import PagedAsm.Assembly.Paging
import PagedAsm.Assembly.Compile
import PagedAsm.Text.Pad
import PagedAsm.Text.Case
import PagedAsm.Files.Path
import PagedAsm.Files.Volume
import PagedAsm.CommandLine.Flag
import PagedAsm.CommandLine.Command
import PagedAsm.CommandLine.Dispatch
import PagedAsm.CommandLine.Listing
import PagedAsm.CommandLine.Build
import PagedAsm.CommandLine.Assembler
import PagedAsm.TableSource.Token
import PagedAsm.TableSource.Source
import PagedAsm.TableSource.Directive
import PagedAsm.TableSource.Scanner
import PagedAsm.TableSource.Tree
import PagedAsm.TableSource.Reader
import PagedAsm.TableSource.Grammar
import PagedAsm.TableSource.Check
import PagedAsm.TableSource.Columns
import PagedAsm.TableSource.Printer
import PagedAsm.TableSource.Nodes
import PagedAsm.TableSource.Format
import PagedAsm.Generator.Declarations
import PagedAsm.Generator.Table
import PagedAsm.Main
import PagedAsm.Proofs.Paging.Pass
import PagedAsm.Proofs.Paging.FixPages
import PagedAsm.Proofs.Paging.Paths
import PagedAsm.Proofs.Paging.Convergence
import PagedAsm.Proofs.Peephole.Accumulator
import PagedAsm.Proofs.Expansion.Steps
import PagedAsm.Proofs.Expansion.Sound
import PagedAsm.Proofs.Expansion.Gather
import PagedAsm.Proofs.Expansion.Statement
import PagedAsm.Proofs.Expansion.Labels
import PagedAsm.Proofs.Expansion.Operands
import PagedAsm.Proofs.Compilation.Stages
import PagedAsm.Proofs.Peephole.ProgramSize
import PagedAsm.Proofs.Image.Layout
import PagedAsm.Proofs.Image.RoundTrip
import PagedAsm.Proofs.Syntax.Grouping
import PagedAsm.Proofs.Syntax.TreeBuilding
import PagedAsm.Proofs.Lexing.Words
import PagedAsm.Proofs.Lexing.Rules
import PagedAsm.Proofs.Lexing.Lexemes
import PagedAsm.Proofs.Lexing.Tokens
import PagedAsm.Proofs.Lexing.Tokenize
import PagedAsm.Proofs.Lines.Placed
import PagedAsm.Proofs.Lines.Reading
import PagedAsm.Proofs.Lines.Gathering
import PagedAsm.Proofs.Lines.Statements
import PagedAsm.Proofs.Lines.Resolution
import PagedAsm.Proofs.Text.Numerals
import PagedAsm.Proofs.Loops.Ranges
import PagedAsm.Proofs.Expansion.Nesting
import PagedAsm.Proofs.Expansion.Mnemonics
import PagedAsm.Proofs.Compilation.Encodable
import PagedAsm.Proofs.Expansion.ByteOrder
import PagedAsm.Proofs.Expansion.StringWrites
import PagedAsm.Proofs.Lines.Lookup
import PagedAsm.Proofs.Generator.Reading
