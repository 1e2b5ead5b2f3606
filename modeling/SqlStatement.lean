import SqlStatement.Builder.Basic
import SqlStatement.Builder.Compile
import SqlStatement.Builder.Config
import SqlStatement.Builder.Draft
import SqlStatement.Builder.Run
import SqlStatement.Builder.Setters
import SqlStatement.Builder.Values
import SqlStatement.Command
import SqlStatement.Condition.Basic
import SqlStatement.Condition.Compile
import SqlStatement.Condition.Key
import SqlStatement.Criteria.Basic
import SqlStatement.Criteria.Clause
import SqlStatement.Criteria.Compile
import SqlStatement.Database.Config
import SqlStatement.Database.Statement
import SqlStatement.Database.Url
import SqlStatement.Decimal.Binary
import SqlStatement.Decimal.Positional
import SqlStatement.Decimal.Reader
import SqlStatement.Decimal.Shortest
import SqlStatement.Driver.Basic
import SqlStatement.Driver.Placeholder
import SqlStatement.Driver.ResultSet
import SqlStatement.Driver.Server
import SqlStatement.Entries
import SqlStatement.Error
import SqlStatement.Integer
import SqlStatement.Json.Basic
import SqlStatement.Json.Document
import SqlStatement.Json.Numeral
import SqlStatement.Json.Reader
import SqlStatement.MapKey
import SqlStatement.Params.Basic
import SqlStatement.Params.Key
import SqlStatement.Params.Slot
import SqlStatement.Proofs.Builder.Assignments
import SqlStatement.Proofs.Builder.Cache
import SqlStatement.Proofs.Builder.Insertions
import SqlStatement.Proofs.Builder.Instances
import SqlStatement.Proofs.Builder.Quotes
import SqlStatement.Proofs.Builder.Runs
import SqlStatement.Proofs.Builder.SelectMap
import SqlStatement.Proofs.Builder.Updates
import SqlStatement.Proofs.CallerBindings
import SqlStatement.Proofs.Condition.Comparisons
import SqlStatement.Proofs.Condition.Conjunction
import SqlStatement.Proofs.Condition.Connectives
import SqlStatement.Proofs.Condition.Expressions
import SqlStatement.Proofs.Condition.Groups
import SqlStatement.Proofs.Condition.Narrowing
import SqlStatement.Proofs.Condition.Terms
import SqlStatement.Proofs.Criteria.Bindings
import SqlStatement.Proofs.Database.Identity
import SqlStatement.Proofs.Database.Url
import SqlStatement.Proofs.Driver
import SqlStatement.Proofs.Driver.Holding
import SqlStatement.Proofs.Driver.Script
import SqlStatement.Proofs.Driver.Sharing
import SqlStatement.Proofs.Entries
import SqlStatement.Proofs.Entries.Containers
import SqlStatement.Proofs.Entries.FirstPlaces
import SqlStatement.Proofs.Expression.Formula
import SqlStatement.Proofs.Expression.Reading
import SqlStatement.Proofs.Integer
import SqlStatement.Proofs.MapKey
import SqlStatement.Proofs.Masked.Draft
import SqlStatement.Proofs.Masked.Template
import SqlStatement.Proofs.Params
import SqlStatement.Proofs.Placement
import SqlStatement.Proofs.Placement.Search
import SqlStatement.Proofs.Positional.Drafts
import SqlStatement.Proofs.Positional.Plain
import SqlStatement.Proofs.Positional.Reading
import SqlStatement.Proofs.Positional.ResultSet
import SqlStatement.Proofs.Positional.RoundTrip
import SqlStatement.Proofs.Query.InsertedId
import SqlStatement.Proofs.Query.Protocol
import SqlStatement.Proofs.Query.Reuse
import SqlStatement.Proofs.Query.Runs
import SqlStatement.Proofs.Query.Script
import SqlStatement.Proofs.ResultColumn
import SqlStatement.Proofs.ResultColumn.Alias
import SqlStatement.Proofs.ResultColumn.Distinct
import SqlStatement.Proofs.ResultColumn.LastAlias
import SqlStatement.Proofs.Row.FetchMap
import SqlStatement.Proofs.Row.Views
import SqlStatement.Proofs.Template
import SqlStatement.Proofs.Text
import SqlStatement.Query.Basic
import SqlStatement.Query.Fetch
import SqlStatement.Repository
import SqlStatement.ResultColumn
import SqlStatement.Row.Basic
import SqlStatement.Row.FetchMap
import SqlStatement.Row.MapOption
import SqlStatement.Template
import SqlStatement.Text.Basic
import SqlStatement.Text.Blank
import SqlStatement.Text.Upper
import SqlStatement.Value.Basic
import SqlStatement.Value.Source
import SqlStatement.Value.Tagged
