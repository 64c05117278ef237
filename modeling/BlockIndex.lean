import BlockIndex.Main
import BlockIndex.Proofs.Run.Change
import BlockIndex.Proofs.Run.Saving
import BlockIndex.Proofs.Store.Edit
import BlockIndex.Proofs.Store.Journal
import BlockIndex.Proofs.Store.Faithful
import BlockIndex.Proofs.Store.Readers
import BlockIndex.Proofs.Run.Project
import BlockIndex.Proofs.Tree.Names
import BlockIndex.Proofs.Embedding.Provider
import BlockIndex.Proofs.Embedding.Answer
import BlockIndex.Proofs.Extract.Yield
import BlockIndex.Proofs.Run.Mark
import BlockIndex.Proofs.Run.Stored
import BlockIndex.Proofs.Run.Detection
import BlockIndex.Proofs.Index.Consistency
import BlockIndex.Proofs.Run.Unhindered
import BlockIndex.Proofs.Index.FromScratch
import BlockIndex.Proofs.Extract.Paths
import BlockIndex.Proofs.Run.Backfill
import BlockIndex.Proofs.Index.Answers
import BlockIndex.Proofs.Run.Deadline
import BlockIndex.Proofs.Run.Delivered
import BlockIndex.Proofs.Index.TwoPhase
import BlockIndex.Proofs.Index.Retry
import BlockIndex.Proofs.Run.Lost
import BlockIndex.Proofs.Run.Gathering
import BlockIndex.Proofs.Index.FixedPoint
import BlockIndex.Proofs.Index.Raised
import BlockIndex.Proofs.Run.Asked
import BlockIndex.Proofs.Index.Calls
import BlockIndex.Proofs.Index.Paid
import BlockIndex.Proofs.CommandLine.Statistics
import BlockIndex.Proofs.Run.Counts
import BlockIndex.Proofs.Run.Elapsed
import BlockIndex.Proofs.Run.Batches
import BlockIndex.Proofs.Tree.Scan
import BlockIndex.Proofs.Store.Fingerprints
import BlockIndex.Proofs.Run.Classified
import BlockIndex.Proofs.Run.Marking
import BlockIndex.Proofs.Run.Fates
import BlockIndex.Proofs.Block.Body
import BlockIndex.Proofs.Text.Blank
import BlockIndex.Proofs.Extract.Sites
import BlockIndex.Proofs.Extract.Scope
import BlockIndex.Proofs.Extract.Nesting
import BlockIndex.Backend.Http
import BlockIndex.Proofs.Tokens.Chunk
import BlockIndex.Proofs.Extract.Spans
import BlockIndex.Proofs.Extract.Names
import BlockIndex.Proofs.Text.Lines
import BlockIndex.Proofs.Tokens.Count
import BlockIndex.Proofs.Tokens.Fewest
import BlockIndex.Proofs.Extract.Plain
import BlockIndex.Proofs.Embedding.Order
import BlockIndex.Proofs.Header.Reads
import BlockIndex.Proofs.Extract.Found
import BlockIndex.Proofs.Text.Utf8
import BlockIndex.Proofs.Text.LineEnds
import BlockIndex.Proofs.Extract.LineEnds
import BlockIndex.Proofs.Text.Rows
import BlockIndex.Proofs.History.Git
import BlockIndex.Proofs.Block.EmbeddingText
import BlockIndex.Proofs.Index.Texts
import BlockIndex.Proofs.Tree.Write
import BlockIndex.Proofs.Store.Csv
import BlockIndex.Proofs.Run.Export
import BlockIndex.Proofs.Block.Braces
import BlockIndex.Proofs.Tokens.Runs
