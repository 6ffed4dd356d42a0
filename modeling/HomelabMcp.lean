import HomelabMcp.SupervisedTask
import HomelabMcp.ChildProcess
import HomelabMcp.KubernetesRunner
import HomelabMcp.IpAddress
import HomelabMcp.JsonValue
import HomelabMcp.MachineInventory
import HomelabMcp.DeployRunner
import HomelabMcp.DeployRunLaws
import HomelabMcp.MutationRetries
import HomelabMcp.HttpExchange
import HomelabMcp.CephClient
import HomelabMcp.CephMutations
import HomelabMcp.CephTokenCache
import HomelabMcp.WebUrl
import HomelabMcp.TektonClient
import HomelabMcp.TektonListing
import HomelabMcp.TektonLogs
import HomelabMcp.KubernetesNormalize
import HomelabMcp.StableSort
import HomelabMcp.KubernetesClient
import HomelabMcp.KubernetesListing
import HomelabMcp.TektonRuns
import HomelabMcp.TektonTaskLists
import HomelabMcp.TektonWorkflows
import HomelabMcp.TektonIdentity
import HomelabMcp.TektonReads
import HomelabMcp.TektonMutations
import HomelabMcp.TektonLogBudget
import HomelabMcp.KubernetesPodLogs
import HomelabMcp.TektonSecrets
import HomelabMcp.RedactedPlaces
import HomelabMcp.LogCuts
import HomelabMcp.KubernetesLogFlags
import HomelabMcp.DeploySystemInfo
import HomelabMcp.SshHomelab
import HomelabMcp.SshHomelabLaws
import HomelabMcp.DeployInventory
import HomelabMcp.HostPins
import HomelabMcp.SshTrust
import HomelabMcp.SshTrustLaws
import HomelabMcp.TektonWait
import HomelabMcp.ClusterConfig
import HomelabMcp.ClusterCatalogs
import HomelabMcp.KubernetesEvents
import HomelabMcp.CephReads
import HomelabMcp.KubernetesMutations
import HomelabMcp.ChronoTime
import HomelabMcp.GrafanaRender
import HomelabMcp.GrafanaPromql
import HomelabMcp.WebUrlPaths
import HomelabMcp.PasswordAuth
import HomelabMcp.TektonRepositories
import HomelabMcp.TokenCacheText
import HomelabMcp.TokenCacheRegister
import HomelabMcp.PercentCoding
import HomelabMcp.BoundedReaders
import HomelabMcp.CephConfirmations
import HomelabMcp.ChronoText
import HomelabMcp.GrafanaNormalize
import HomelabMcp.GrafanaPanels
import HomelabMcp.GrafanaSilences
import HomelabMcp.GrafanaStreams
import HomelabMcp.KubernetesActions
import HomelabMcp.KubernetesSelectors
import HomelabMcp.McpResources
import HomelabMcp.TektonWorkflowIds
import HomelabMcp.DeploymentPolicy
import HomelabMcp.GrafanaClient
import HomelabMcp.McpTools
import HomelabMcp.ProductionRedactions
import HomelabMcp.OpenBaoClient
import HomelabMcp.OpenBaoGrant
import HomelabMcp.KubernetesAccess
import HomelabMcp.Linearization
import HomelabMcp.MachineSessions
import HomelabMcp.SigningKeys
