import HomelabMcp.Text

/-!
# The resources of the Kubernetes API

The kinds that may be queried, where the API has them, and the names that are valid.
-/

namespace Kubernetes

/-- `valid_dns_label`. -/
def validDnsLabel (value : String) : Bool :=
  !value.isEmpty && value.utf8ByteSize ≤ 63 &&
    value.toList.all (fun c => ('a' ≤ c && c ≤ 'z') || c.isDigit || c == '-') &&
    value.toList.head?.any Char.isAlphanum && value.toList.getLast?.any Char.isAlphanum

/-- `valid_dns_subdomain`. -/
def validDnsSubdomain (value : String) (max : Nat) : Bool :=
  !value.isEmpty && value.utf8ByteSize ≤ max && (Text.split value '.').all validDnsLabel

/-- `valid_object_name`. -/
def validObjectName (value : String) : Bool := validDnsSubdomain value 253

/-- `valid_namespace`. -/
def validNamespace (value : String) : Bool := validDnsLabel value

/-- The kinds of resources. -/
inductive ResourceKind where
  | namespace
  | node
  | deployment
  | statefulSet
  | daemonSet
  | replicaSet
  | job
  | cronJob
  | pod
  | event
  | podMetric
  | nodeMetric
  | service
  | endpointSlice
  | ingress
  | gateway
  | gatewayClass
  | httpRoute
  | networkPolicy
  | persistentVolumeClaim
  | storageClass
  | horizontalPodAutoscaler
  | podDisruptionBudget
  | certificate
  | clusterIssuer
  | cnpgCluster
  | kafka
  | kafkaNodePool
  | kafkaTopic
  | cephCluster
  | cephFilesystem
  | cephBlockPool
  | cephObjectStore
  | veleroBackup
  | veleroSchedule
  | backupStorageLocation
  deriving DecidableEq

namespace ResourceKind

/-- Whether a kind lies in namespaces. -/
def namespaced : ResourceKind → Bool
  | .namespace | .node | .nodeMetric | .gatewayClass | .storageClass | .clusterIssuer => false
  | _ => true

/-- Prefix, version and name of the resource in the API. -/
def mapping : ResourceKind → String × String × String
  | .namespace => ("api", "v1", "namespaces")
  | .node => ("api", "v1", "nodes")
  | .deployment => ("apis", "apps/v1", "deployments")
  | .statefulSet => ("apis", "apps/v1", "statefulsets")
  | .daemonSet => ("apis", "apps/v1", "daemonsets")
  | .replicaSet => ("apis", "apps/v1", "replicasets")
  | .job => ("apis", "batch/v1", "jobs")
  | .cronJob => ("apis", "batch/v1", "cronjobs")
  | .pod => ("api", "v1", "pods")
  | .event => ("apis", "events.k8s.io/v1", "events")
  | .podMetric => ("apis", "metrics.k8s.io/v1beta1", "pods")
  | .nodeMetric => ("apis", "metrics.k8s.io/v1beta1", "nodes")
  | .service => ("api", "v1", "services")
  | .endpointSlice => ("apis", "discovery.k8s.io/v1", "endpointslices")
  | .ingress => ("apis", "networking.k8s.io/v1", "ingresses")
  | .gateway => ("apis", "gateway.networking.k8s.io/v1", "gateways")
  | .gatewayClass => ("apis", "gateway.networking.k8s.io/v1", "gatewayclasses")
  | .httpRoute => ("apis", "gateway.networking.k8s.io/v1", "httproutes")
  | .networkPolicy => ("apis", "networking.k8s.io/v1", "networkpolicies")
  | .persistentVolumeClaim => ("api", "v1", "persistentvolumeclaims")
  | .storageClass => ("apis", "storage.k8s.io/v1", "storageclasses")
  | .horizontalPodAutoscaler => ("apis", "autoscaling/v2", "horizontalpodautoscalers")
  | .podDisruptionBudget => ("apis", "policy/v1", "poddisruptionbudgets")
  | .certificate => ("apis", "cert-manager.io/v1", "certificates")
  | .clusterIssuer => ("apis", "cert-manager.io/v1", "clusterissuers")
  | .cnpgCluster => ("apis", "postgresql.cnpg.io/v1", "clusters")
  | .kafka => ("apis", "kafka.strimzi.io/v1beta2", "kafkas")
  | .kafkaNodePool => ("apis", "kafka.strimzi.io/v1beta2", "kafkanodepools")
  | .kafkaTopic => ("apis", "kafka.strimzi.io/v1beta2", "kafkatopics")
  | .cephCluster => ("apis", "ceph.rook.io/v1", "cephclusters")
  | .cephFilesystem => ("apis", "ceph.rook.io/v1", "cephfilesystems")
  | .cephBlockPool => ("apis", "ceph.rook.io/v1", "cephblockpools")
  | .cephObjectStore => ("apis", "ceph.rook.io/v1", "cephobjectstores")
  | .veleroBackup => ("apis", "velero.io/v1", "backups")
  | .veleroSchedule => ("apis", "velero.io/v1", "schedules")
  | .backupStorageLocation => ("apis", "velero.io/v1", "backupstoragelocations")

/-- Its version, as the API writes it. -/
def apiVersion (kind : ResourceKind) : String := kind.mapping.2.1

end ResourceKind

/-- A query for resources; the labels are in the order of their keys. -/
structure ResourceQuery where
  kind : ResourceKind
  ns : Option String
  name : Option String
  labels : List (String × String)
  limit : UInt16

end Kubernetes
