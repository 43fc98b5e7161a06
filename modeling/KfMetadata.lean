import KfMetadata.Library.ConcurrentClients
import KfMetadata.Library.Keyed
import KfMetadata.Library.OrderedMap
import KfMetadata.Library.PercentEncoding
import KfMetadata.Library.Procedure
import KfMetadata.Library.Regexp
import KfMetadata.Library.RemoteProgram
import KfMetadata.Library.Retry
import KfMetadata.Library.Stateful
import KfMetadata.Library.Text
import KfMetadata.Mlmd.Records
import KfMetadata.Mlmd.Contents
import KfMetadata.Mlmd.Api
import KfMetadata.Mlmd.Client
import KfMetadata.Mlmd.Consistent
import KfMetadata.Mlmd.Additions
import KfMetadata.Mlmd.InMemory
import KfMetadata.Service.Names
import KfMetadata.Service.Handlers
import KfMetadata.Service.Specs
import KfMetadata.Service.Lookup
import KfMetadata.Service.Atomicity
import KfMetadata.Service.Concurrency
import KfMetadata.Schema.SchemaSet
import KfMetadata.Schema.Register
import KfMetadata.Schema.Restart
import KfMetadata.Watcher.MetaLogger
import KfMetadata.Watcher.ExactlyOnce
import KfMetadata.Sdk.Metadata
import KfMetadata.Sdk.Session
import KfMetadata.Sdk.Lineage
import KfMetadata.Sdk.RetrySafety
import KfMetadata.Frontend.CustomTable
import KfMetadata.Frontend.PageTokens
import KfMetadata.Frontend.Host
import KfMetadata.Frontend.Utils
import KfMetadata.Frontend.ResourceLists
import KfMetadata.Frontend.LastRequest
import KfMetadata.Library.CallLog
import KfMetadata.Service.Failures
import KfMetadata.Library.Acyclic
import KfMetadata.Schema.Inheritance
import KfMetadata.Service.ReturnedTypes
import KfMetadata.Schema.Building
import KfMetadata.Schema.Additions
import KfMetadata.Schema.Termination
import KfMetadata.Schema.VisitOrder
import KfMetadata.Library.PathTemplate
import KfMetadata.Service.Routes
import KfMetadata.Sdk.Artifacts
import KfMetadata.Sdk.Deduplication
import KfMetadata.Sdk.Listing
import KfMetadata.Library.WorkQueue
import KfMetadata.Watcher.Worker
import KfMetadata.Watcher.Delivery
import KfMetadata.Watcher.FailureCounts
import KfMetadata.Service.EventLists
import KfMetadata.Service.NameGrammar
import KfMetadata.Schema.TypeNames
import KfMetadata.Service.Listings
import KfMetadata.Library.Grouping
import KfMetadata.Frontend.Grouping
import KfMetadata.Frontend.Filtering
import KfMetadata.Sdk.Workspaces
import KfMetadata.Sdk.WorkspaceRaces
import KfMetadata.Frontend.OverlappingRequests
import KfMetadata.Service.NamespacedNames
import KfMetadata.Schema.TypeIdentity
import KfMetadata.Schema.RegisteredProperties
import KfMetadata.Sdk.Flattening
import KfMetadata.Sdk.RoundTrip
import KfMetadata.Frontend.Comparing
import KfMetadata.Frontend.Links
import KfMetadata.Watcher.Process
import KfMetadata.Service.Answers
import KfMetadata.Service.LaterRequests
import KfMetadata.Service.Gateway
import KfMetadata.Frontend.Expansion
import KfMetadata.Frontend.ExecutionDetails
import KfMetadata.Frontend.ShownLineage
import KfMetadata.Frontend.ArtifactDetails
import KfMetadata.Frontend.ShownArtifacts
import KfMetadata.Frontend.ShownLists
import KfMetadata.Schema.Shipped
import KfMetadata.Mlmd.Obliging
import KfMetadata.Sdk.Predefined
import KfMetadata.Sdk.Working
import KfMetadata.Sdk.SharedServer
import KfMetadata.Sdk.ServedLogs
import KfMetadata.Service.Answered
import KfMetadata.Sdk.SharedArtifacts
import KfMetadata.Service.ParentNames
