import RowSql.Main
import RowSql.Proofs.Filter.Alternatives
import RowSql.Proofs.Filter.Leniency
import RowSql.Proofs.Statement.Arrangement
import RowSql.Proofs.Statement.Canonical
import RowSql.Proofs.Statement.Partition
import RowSql.Proofs.Statement.Passage
import RowSql.Proofs.Statement.Printing
import RowSql.Proofs.Database.Independence
import RowSql.Proofs.Database.Insert
import RowSql.Proofs.Database.Memory
import RowSql.Proofs.Database.Update
import RowSql.Proofs.Query.Tuples
import RowSql.Proofs.Query.Ordering
import RowSql.Proofs.Query.Agreement
import RowSql.Proofs.Filter.Pattern
import RowSql.Proofs.Filter.Meaning
import RowSql.Proofs.Database.Unaffected
import RowSql.Proofs.Shell.Session
import RowSql.Proofs.Shell.Log
import RowSql.Proofs.Substitution
import RowSql.Proofs.Filter.Membership
import RowSql.Proofs.Text.Delimiters
import RowSql.Proofs.Filter.Reassembly
import RowSql.Proofs.Filter.Recasing
import RowSql.Proofs.View.Table
