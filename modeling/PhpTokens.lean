import PhpTokens.Unicode.CodeSet
import PhpTokens.Unicode.Alphabetic
import PhpTokens.Unicode.Numeric
import PhpTokens.Unicode.WhiteSpace
import PhpTokens.Unicode.DefaultIgnorable
import PhpTokens.Unicode.GraphemeExtend
import PhpTokens.Unicode.Printable
import PhpTokens.Text.Utf8
import PhpTokens.Text.Quoted
import PhpTokens.Text.CharClass
import PhpTokens.Text.Place
import PhpTokens.Text.SystemText
import PhpTokens.Text.Reader
import PhpTokens.Decimal.Shortest
import PhpTokens.Json
import PhpTokens.JsonText.Stop
import PhpTokens.JsonText.StringText
import PhpTokens.JsonText.Skip
import PhpTokens.JsonText.NumberText
import PhpTokens.JsonText.WrongType
import PhpTokens.Rules.Basic
import PhpTokens.Rules.OfJson
import PhpTokens.Token.Keyword
import PhpTokens.Token.Symbol
import PhpTokens.Token.Basic
import PhpTokens.SourceText
import PhpTokens.Scan.Lexeme
import PhpTokens.Scan.Failure
import PhpTokens.Scan.Event
import PhpTokens.Scan.Scanner
import PhpTokens.FileTree
import PhpTokens.Corpus
import PhpTokens.CommandLine.Options
import PhpTokens.CommandLine.Result
import PhpTokens.CommandLine.Listing
import PhpTokens.CommandLine.Survey
import PhpTokens.Main
import PhpTokens.Proofs.Text.Utf8
import PhpTokens.Proofs.Text.SystemText
import PhpTokens.Proofs.Text.Runs
import PhpTokens.Proofs.Text.Lines
import PhpTokens.Proofs.Text.Quoted
import PhpTokens.Proofs.Text.LineColumn
import PhpTokens.Proofs.Text.Movements
import PhpTokens.Proofs.Text.Rounds
import PhpTokens.Proofs.Text.Ahead
import PhpTokens.Proofs.Text.CharClass
import PhpTokens.Proofs.Token.Keyword
import PhpTokens.Proofs.Token.Symbol
import PhpTokens.Proofs.Token.Basic
import PhpTokens.Proofs.SourceText
import PhpTokens.Proofs.SourceText.Offsets
import PhpTokens.Proofs.Scan.Lexeme
import PhpTokens.Proofs.Scan.Cutting
import PhpTokens.Proofs.Scan.Run
import PhpTokens.Proofs.Scan.Reading
import PhpTokens.Proofs.Scan.ByteSearch
import PhpTokens.Proofs.Scan.Probing
import PhpTokens.Proofs.Scan.Requests
import PhpTokens.Proofs.Scan.Tiling
import PhpTokens.Proofs.Scan.Places
import PhpTokens.Proofs.Scan.PlaceOrder
import PhpTokens.Proofs.Scan.LeadingKeywords
import PhpTokens.Proofs.Scan.OpenEnd
import PhpTokens.Proofs.Scan.EventLog
import PhpTokens.Proofs.Scan.Lookahead
import PhpTokens.Proofs.Scan.Restart
import PhpTokens.Proofs.Scan.Spacing
import PhpTokens.Proofs.Scan.LongestMatch
import PhpTokens.Proofs.Scan.PlaceRules
import PhpTokens.Proofs.Scan.MixedRequests
import PhpTokens.Proofs.Scan.Progress
import PhpTokens.Proofs.Scan.Faults
import PhpTokens.Proofs.Guarded.ByteReader
import PhpTokens.Proofs.Guarded.ByteReading
import PhpTokens.Proofs.Guarded.ByteScanner
import PhpTokens.Proofs.FileTree
import PhpTokens.Proofs.FilePath
import PhpTokens.Proofs.Corpus.Account
import PhpTokens.Proofs.Corpus.Report
import PhpTokens.Proofs.CommandLine.Invocation
import PhpTokens.Proofs.CommandLine.Survey
import PhpTokens.Proofs.Corpus.Workers
import PhpTokens.Proofs.CommandLine.TextListing
import PhpTokens.Proofs.CommandLine.Agreement
import PhpTokens.Proofs.JsonText.Grammar
import PhpTokens.Proofs.JsonText.Strings
import PhpTokens.Proofs.JsonText.Skipping
import PhpTokens.Proofs.Rules.OfJson
import PhpTokens.Proofs.JsonText.Decoding
import PhpTokens.Proofs.JsonText.Written
import PhpTokens.Proofs.CommandLine.JsonListing
