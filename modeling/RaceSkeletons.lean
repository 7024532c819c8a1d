import RaceSkeletons.Main
import RaceSkeletons.Proofs.Report.CsvReader
import RaceSkeletons.Proofs.Report.RowRecovery
import RaceSkeletons.Proofs.Text.CharClasses
import RaceSkeletons.Proofs.Tracked.Words
import RaceSkeletons.Proofs.Analyzer.Fanout
import RaceSkeletons.Proofs.Analyzer.Schedule
import RaceSkeletons.Proofs.FileSystem.Locate
import RaceSkeletons.Proofs.FileSystem.Change
import RaceSkeletons.Proofs.Corpus.Normalize
import RaceSkeletons.Proofs.Corpus.Discover
import RaceSkeletons.Proofs.Report.File
import RaceSkeletons.Proofs.Run.Stages
import RaceSkeletons.Proofs.Run.Accounts
import RaceSkeletons.Proofs.Run.Events
import RaceSkeletons.Proofs.FileSystem.Directories
import RaceSkeletons.Proofs.Corpus.FileName
import RaceSkeletons.Proofs.FileSystem.Moves
import RaceSkeletons.Proofs.FileSystem.Reach
import RaceSkeletons.Proofs.Corpus.Comments
import RaceSkeletons.Proofs.Corpus.Contents
import RaceSkeletons.Proofs.Corpus.Links
import RaceSkeletons.Proofs.Run.Completion
import RaceSkeletons.Proofs.FileSystem.Walk
import RaceSkeletons.Proofs.Corpus.Rename
import RaceSkeletons.Proofs.Corpus.Cases
import RaceSkeletons.Proofs.Corpus.Idempotence
import RaceSkeletons.Proofs.FileSystem.Growth
import RaceSkeletons.Proofs.Corpus.Survey
import RaceSkeletons.Proofs.Corpus.Spared
import RaceSkeletons.Proofs.Run.Rerun
import RaceSkeletons.Proofs.Analyzer.External
import RaceSkeletons.Proofs.Run.Isolation
import RaceSkeletons.Proofs.Corpus.Partition
import RaceSkeletons.Proofs.Corpus.Frame
import RaceSkeletons.Proofs.Run.EarlyEnd
import RaceSkeletons.Proofs.Corpus.CommentLines
import RaceSkeletons.Proofs.Corpus.NormalNames
import RaceSkeletons.Proofs.Corpus.SameTree
import RaceSkeletons.Proofs.Run.Preview
import RaceSkeletons.Proofs.Corpus.Headers
import RaceSkeletons.Proofs.Corpus.Visits
import RaceSkeletons.Proofs.Run.Headers
import RaceSkeletons.Proofs.Corpus.Literals
import RaceSkeletons.Proofs.Corpus.Rearrange
import RaceSkeletons.Proofs.Corpus.FirmLinks
import RaceSkeletons.Proofs.Corpus.Blocks
import RaceSkeletons.Proofs.Corpus.BlockOrder
import RaceSkeletons.Proofs.Analyzer.Variants
import RaceSkeletons.Proofs.Tracked.Lines
import RaceSkeletons.Proofs.Run.Coverage
import RaceSkeletons.Proofs.Settings.Sources
import RaceSkeletons.Proofs.Corpus.Statistics
import RaceSkeletons.Proofs.Report.Summary
import RaceSkeletons.Proofs.CommandLine.Drafts
import RaceSkeletons.Proofs.CommandLine.Groups
import RaceSkeletons.Proofs.CommandLine.Acceptance
import RaceSkeletons.Proofs.CommandLine.Reordering
