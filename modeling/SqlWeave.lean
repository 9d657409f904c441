import SqlWeave.Monitor.Stats
import SqlWeave.Sample.Shelf
import SqlWeave.Session.Foreign
import SqlWeave.Session.Operation
import SqlWeave.Session.Tape
import SqlWeave.Session.Transaction
import SqlWeave.Proofs.Redaction.Fragment
import SqlWeave.Proofs.Redaction.Member
import SqlWeave.Proofs.Redaction.Query
import SqlWeave.Proofs.Redaction.Outcome
import SqlWeave.Proofs.Redaction.Statement
import SqlWeave.Proofs.Logic.Reading
import SqlWeave.Proofs.Logic.Condition
import SqlWeave.Proofs.Logic.Meaning
import SqlWeave.Proofs.Insert.Row
import SqlWeave.Proofs.Insert.Block
import SqlWeave.Proofs.Insert.Batches
import SqlWeave.Proofs.Insert.Fewest
import SqlWeave.Proofs.Template.Rescan
import SqlWeave.Proofs.Template.Origin
import SqlWeave.Proofs.Escaping.Statement
import SqlWeave.Proofs.Clauses.Modification
import SqlWeave.Proofs.Mapping.Path
import SqlWeave.Proofs.Session.Cache
import SqlWeave.Proofs.Session.Gate
import SqlWeave.Proofs.Session.Brackets
import SqlWeave.Proofs.Session.Bundle
import SqlWeave.Proofs.Merge.Declared
import SqlWeave.Proofs.Quoting.Name
import SqlWeave.Proofs.Session.ReadOnly
import SqlWeave.Proofs.Logic.Hollow
import SqlWeave.Proofs.Logic.Predicate
import SqlWeave.Proofs.Template.Comment
import SqlWeave.Proofs.Member.Dispatch
import SqlWeave.Proofs.Clauses.Page
import SqlWeave.Proofs.Clauses.Values
import SqlWeave.Proofs.Clauses.Guard
import SqlWeave.Proofs.Drafting.Again
import SqlWeave.Proofs.Template.Splice
import SqlWeave.Proofs.Member.Grammar
import SqlWeave.Proofs.Member.Survival
import SqlWeave.Proofs.Clauses.Projection
import SqlWeave.Proofs.Member.Unmapped
import SqlWeave.Proofs.Member.Qualified
import SqlWeave.Proofs.DatePattern.Scan
import SqlWeave.Proofs.Mapping.Batch
import SqlWeave.Proofs.Session.Records
import SqlWeave.Proofs.Schema.Keys
import SqlWeave.Proofs.Schema.Declaration
import SqlWeave.Proofs.Monitor.History
import SqlWeave.Proofs.Mapping.Activation
import SqlWeave.Proofs.Calendar.RoundTrip
import SqlWeave.Proofs.Value.Key
import SqlWeave.Proofs.Monitor.Conflict
import SqlWeave.Proofs.Monitor.Quiet
import SqlWeave.Proofs.Monitor.Statement
import SqlWeave.Proofs.Monitor.Kinds
import SqlWeave.Proofs.Drafting.Ledger
import SqlWeave.Proofs.Template.Bytes
import SqlWeave.Proofs.DatePattern.Intervals
import SqlWeave.Proofs.Monitor.Wording
import SqlWeave.Proofs.Cursor.Reading
