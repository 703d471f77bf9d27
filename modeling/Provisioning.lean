import Provisioning.Ascending
import Provisioning.Assembly
import Provisioning.Band
import Provisioning.ChangeSet
import Provisioning.Command
import Provisioning.Conflict
import Provisioning.Criteria
import Provisioning.Decimal.Basic
import Provisioning.Decimal.Reader
import Provisioning.Directory
import Provisioning.Double.Basic
import Provisioning.Double.Shortest
import Provisioning.Error
import Provisioning.Http.Body
import Provisioning.Http.Server
import Provisioning.Http.Target
import Provisioning.Json.Printer
import Provisioning.Json.Reader
import Provisioning.Log.Level
import Provisioning.Log.Line
import Provisioning.Metrics
import Provisioning.Percentage
import Provisioning.Reference
import Provisioning.Request.Basic
import Provisioning.Request.Integer
import Provisioning.Request.Reader
import Provisioning.Revision
import Provisioning.Settings.Basic
import Provisioning.Settings.EnvFile
import Provisioning.Shape
import Provisioning.Store.Basic
import Provisioning.Store.Save
import Provisioning.Store.Transaction
import Provisioning.Text.Blank
import Provisioning.Text.Digit
import Provisioning.Text.Printable
import Provisioning.Text.Quoted
import Provisioning.Text.Utf8
import Provisioning.Value.Basic
import Provisioning.Value.Shown
import Provisioning.Proofs.ChangeSet
import Provisioning.Proofs.Decimal.Value
import Provisioning.Proofs.Percentage
import Provisioning.Proofs.Double.Nearest
import Provisioning.Proofs.Store.Percentage
import Provisioning.Proofs.Band.Disjoint
import Provisioning.Proofs.Band.Build
import Provisioning.Proofs.Band.Entry
import Provisioning.Proofs.Assembly.Lookups
import Provisioning.Proofs.Assembly
import Provisioning.Proofs.Request
import Provisioning.Proofs.Request.Reader
import Provisioning.Proofs.Request.Dump
import Provisioning.Proofs.Request.Refusal
import Provisioning.Proofs.Band.Revised
import Provisioning.Proofs.Store.Table
import Provisioning.Proofs.Store.Read
import Provisioning.Proofs.Store.Write
import Provisioning.Proofs.Store.Written
import Provisioning.Proofs.Store.Consistent
import Provisioning.Proofs.Store.Preservation
import Provisioning.Proofs.Store.ReadBack
import Provisioning.Proofs.Store.Saved
import Provisioning.Proofs.Revision
import Provisioning.Proofs.Store.Coherent
import Provisioning.Proofs.Command.Steps
import Provisioning.Proofs.Command.Run
import Provisioning.Proofs.Command.History
import Provisioning.Proofs.Command.Create
import Provisioning.Proofs.Command.Update
import Provisioning.Proofs.Command.Changes
import Provisioning.Proofs.Command.Repeat
import Provisioning.Proofs.Command.Delete
import Provisioning.Proofs.Http.Server
import Provisioning.Proofs.Http.Refusal
import Provisioning.Proofs.Store.Rewrite
import Provisioning.Proofs.Command.Resumed
import Provisioning.Proofs.Request.Definitions
import Provisioning.Proofs.Command.Batch
import Provisioning.Proofs.Command.Grow
import Provisioning.Proofs.Command.Order
import Provisioning.Proofs.Conflict
import Provisioning.Proofs.Schema
import Provisioning.Proofs.Failure
import Provisioning.Proofs.Store.Refusal
import Provisioning.Proofs.Command.Work
import Provisioning.Proofs.Command.Conflict
import Provisioning.Proofs.Command.Count
import Provisioning.Proofs.Band.Check
import Provisioning.Proofs.Criteria.Apply
import Provisioning.Proofs.Store.Commute
import Provisioning.Proofs.Command.Commute
import Provisioning.Proofs.Decimal.Grammar
import Provisioning.Proofs.Decimal.Text
import Provisioning.Proofs.Decimal.Rounding
import Provisioning.Proofs.Percentage.Spelling
import Provisioning.Proofs.Command.Recreate
import Provisioning.Proofs.Double.Text
import Provisioning.Proofs.Request.Integer
import Provisioning.Proofs.Request.Demand
import Provisioning.Proofs.Request.Admissible
import Provisioning.Proofs.Criteria.Update
import Provisioning.Proofs.Command.Spelling
import Provisioning.Proofs.Request.Spelling
