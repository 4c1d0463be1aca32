import QueryCriteria.Main
import QueryCriteria.Proofs.Batch
import QueryCriteria.Proofs.DirectorySearch.Readability
import QueryCriteria.Proofs.Document
import QueryCriteria.Proofs.EntityQuery.Joins
import QueryCriteria.Proofs.EntityQuery.Rendering
import QueryCriteria.Proofs.EntityQuery.Strategy
import QueryCriteria.Proofs.EntityQuery.Unambiguity
import QueryCriteria.Proofs.FetchPlan.Termination
import QueryCriteria.Proofs.ListTest
import QueryCriteria.Proofs.Noninterference
import QueryCriteria.Proofs.Qualification
import QueryCriteria.Proofs.Schema
import QueryCriteria.Proofs.DirectorySearch.Classes
import QueryCriteria.Proofs.EntityQuery.JoinRecord
import QueryCriteria.Proofs.Levels
import QueryCriteria.Proofs.RangeTest
import QueryCriteria.Proofs.EntityQuery.RangeTest
import QueryCriteria.Proofs.DirectorySearch.Attachment
import QueryCriteria.Proofs.Settings
import QueryCriteria.Proofs.CommandLine
