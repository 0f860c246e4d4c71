import HouseStyle.Block.Basic
import HouseStyle.Block.CommentCase
import HouseStyle.Block.Layout
import HouseStyle.Block.LogicalLine
import HouseStyle.Block.Parser
import HouseStyle.Block.Sort
import HouseStyle.CommandLine.Arguments
import HouseStyle.CommandLine.Log
import HouseStyle.CommandLine.Run
import HouseStyle.Decimal
import HouseStyle.Declaration.Basic
import HouseStyle.Declaration.Cases
import HouseStyle.Declaration.Category
import HouseStyle.Declaration.CommentCase
import HouseStyle.Declaration.Edit
import HouseStyle.Declaration.Layout
import HouseStyle.Declaration.Parser
import HouseStyle.Declaration.Pass
import HouseStyle.Declaration.Shape
import HouseStyle.Declaration.Sort
import HouseStyle.Declaration.Visibility
import HouseStyle.Dialect
import HouseStyle.Diff.Compact
import HouseStyle.Diff.Hunk
import HouseStyle.Diff.Script
import HouseStyle.Diff.Unified
import HouseStyle.Files.Batch
import HouseStyle.Files.Discovery
import HouseStyle.Files.Glob.Basic
import HouseStyle.Files.Glob.Parser
import HouseStyle.Files.Ignore.Rule
import HouseStyle.Files.Ignore.Verdict
import HouseStyle.Files.Ignore.Walk
import HouseStyle.Files.Path
import HouseStyle.Files.Repository
import HouseStyle.Files.Tree
import HouseStyle.Main
import HouseStyle.Outline
import HouseStyle.Proofs.Block.CleanText
import HouseStyle.Proofs.Block.DecoratorSort
import HouseStyle.Proofs.Block.Decorators
import HouseStyle.Proofs.Block.Formed
import HouseStyle.Proofs.Block.Indentation
import HouseStyle.Proofs.Block.Lists
import HouseStyle.Proofs.Block.LogicalLine
import HouseStyle.Proofs.Block.LogicalLines
import HouseStyle.Proofs.Block.Nested
import HouseStyle.Proofs.Block.Places
import HouseStyle.Proofs.Block.Reads
import HouseStyle.Proofs.Block.Reread
import HouseStyle.Proofs.Block.Sites
import HouseStyle.Proofs.Block.Sort
import HouseStyle.Proofs.Block.SortFile
import HouseStyle.Proofs.Block.SortedLists
import HouseStyle.Proofs.Block.Wording
import HouseStyle.Proofs.CodeLines
import HouseStyle.Proofs.CommandLine.DryRun
import HouseStyle.Proofs.CommentCase
import HouseStyle.Proofs.Declaration.Alike
import HouseStyle.Proofs.Declaration.BraceDepth
import HouseStyle.Proofs.Declaration.CaseGroups
import HouseStyle.Proofs.Declaration.CaseLabels
import HouseStyle.Proofs.Declaration.CasePlaces
import HouseStyle.Proofs.Declaration.CaseRuns
import HouseStyle.Proofs.Declaration.Cases
import HouseStyle.Proofs.Declaration.CodeLines
import HouseStyle.Proofs.Declaration.CommentCase
import HouseStyle.Proofs.Declaration.EnumSort
import HouseStyle.Proofs.Declaration.LabelParentheses
import HouseStyle.Proofs.Declaration.Literals
import HouseStyle.Proofs.Declaration.Lookahead
import HouseStyle.Proofs.Declaration.MapText
import HouseStyle.Proofs.Declaration.Modifiers
import HouseStyle.Proofs.Declaration.Names
import HouseStyle.Proofs.Declaration.Nesting
import HouseStyle.Proofs.Declaration.Pass
import HouseStyle.Proofs.Declaration.Places
import HouseStyle.Proofs.Declaration.Read
import HouseStyle.Proofs.Declaration.Reread
import HouseStyle.Proofs.Declaration.SettledCases
import HouseStyle.Proofs.Declaration.Shape
import HouseStyle.Proofs.Declaration.Sort
import HouseStyle.Proofs.Declaration.SortedMembers
import HouseStyle.Proofs.Declaration.Source
import HouseStyle.Proofs.Declaration.StoppedSort
import HouseStyle.Proofs.Declaration.Visibility
import HouseStyle.Proofs.ErrorLines
import HouseStyle.Proofs.Files.Batch
import HouseStyle.Proofs.Files.Discovery
import HouseStyle.Proofs.Files.Path
import HouseStyle.Proofs.Files.Pool
import HouseStyle.Proofs.Files.Tree
import HouseStyle.Proofs.Machine.BlockPasses
import HouseStyle.Proofs.Machine.BlockReader
import HouseStyle.Proofs.Machine.BlockWeight
import HouseStyle.Proofs.Machine.BlockWriter
import HouseStyle.Proofs.Machine.Cases
import HouseStyle.Proofs.Machine.DeclarationPasses
import HouseStyle.Proofs.Machine.DeclarationReader
import HouseStyle.Proofs.Machine.DeclarationWeight
import HouseStyle.Proofs.Machine.DeclarationWriter
import HouseStyle.Proofs.Machine.Descent
import HouseStyle.Proofs.Machine.Line
import HouseStyle.Proofs.Machine.LogicalLine
import HouseStyle.Proofs.Machine.Operations
import HouseStyle.Proofs.Machine.Runs
import HouseStyle.Proofs.Machine.Scan
import HouseStyle.Proofs.Machine.Transform
import HouseStyle.Proofs.Machine.Weight
import HouseStyle.Proofs.NormalText
import HouseStyle.Proofs.Outline
import HouseStyle.Proofs.Reading
import HouseStyle.Proofs.Text.Comment
import HouseStyle.Proofs.Text.Line
import HouseStyle.Proofs.Text.Lines
import HouseStyle.Proofs.Text.Literal
import HouseStyle.Proofs.Text.NaturalKey
import HouseStyle.Proofs.Text.Neighbors
import HouseStyle.Proofs.Text.Order
import HouseStyle.Proofs.Text.RunPlaces
import HouseStyle.Proofs.Text.Runs
import HouseStyle.Proofs.Text.Space
import HouseStyle.Proofs.Text.Word
import HouseStyle.RoundTrip
import HouseStyle.Settings.Basic
import HouseStyle.Settings.Config
import HouseStyle.Settings.KeyPath
import HouseStyle.Text.EscapeRanges
import HouseStyle.Text.Line
import HouseStyle.Text.Lines
import HouseStyle.Text.Literal
import HouseStyle.Text.NaturalKey
import HouseStyle.Text.Quoted
import HouseStyle.Text.Runs
import HouseStyle.Text.Utf8
import HouseStyle.Text.Word
import HouseStyle.Text.WordRanges
import HouseStyle.Toml.Parser
import HouseStyle.Toml.Scalar
import HouseStyle.Toml.Scanner
import HouseStyle.Toml.Value
import HouseStyle.Trace
