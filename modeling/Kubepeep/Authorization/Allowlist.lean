import Mathlib

/-!
# The capability allowlist

`internal/services/authorization/allowlist.go` with the rows of
`internal/services/resourcecatalog/catalog.go` that it appends: one entry for every operation that
the user interface may ask about.
-/

namespace Kubepeep.Authorization

/-- Version and kind are not read here. -/
structure Resource where
  collection : String
  group : String
  resource : String
  namespaced : Bool
  deriving DecidableEq, Repr

def Resource.UpdateCapability (resource : Resource) : String :=
  "yaml." ++ resource.collection ++ ".update"

def resources : List Resource :=
  [⟨"gateway-classes", "gateway.networking.k8s.io", "gatewayclasses", false⟩,
   ⟨"gateways", "gateway.networking.k8s.io", "gateways", true⟩,
   ⟨"http-routes", "gateway.networking.k8s.io", "httproutes", true⟩,
   ⟨"grpc-routes", "gateway.networking.k8s.io", "grpcroutes", true⟩,
   ⟨"tcp-routes", "gateway.networking.k8s.io", "tcproutes", true⟩,
   ⟨"tls-routes", "gateway.networking.k8s.io", "tlsroutes", true⟩,
   ⟨"udp-routes", "gateway.networking.k8s.io", "udproutes", true⟩,
   ⟨"reference-grants", "gateway.networking.k8s.io", "referencegrants", true⟩,
   ⟨"backend-tls-policies", "gateway.networking.k8s.io", "backendtlspolicies", true⟩,
   ⟨"listener-sets", "gateway.networking.k8s.io", "listenersets", true⟩,
   ⟨"pods", "", "pods", true⟩,
   ⟨"deployments", "apps", "deployments", true⟩,
   ⟨"statefulsets", "apps", "statefulsets", true⟩,
   ⟨"daemonsets", "apps", "daemonsets", true⟩,
   ⟨"replicasets", "apps", "replicasets", true⟩,
   ⟨"jobs", "batch", "jobs", true⟩,
   ⟨"cronjobs", "batch", "cronjobs", true⟩,
   ⟨"services", "", "services", true⟩,
   ⟨"endpoints", "", "endpoints", true⟩,
   ⟨"endpoint-slices", "discovery.k8s.io", "endpointslices", true⟩,
   ⟨"ingresses", "networking.k8s.io", "ingresses", true⟩,
   ⟨"ingress-classes", "networking.k8s.io", "ingressclasses", false⟩,
   ⟨"network-policies", "networking.k8s.io", "networkpolicies", true⟩,
   ⟨"configmaps", "", "configmaps", true⟩,
   ⟨"secrets", "", "secrets", true⟩,
   ⟨"nodes", "", "nodes", false⟩,
   ⟨"namespaces", "", "namespaces", false⟩,
   ⟨"leases", "coordination.k8s.io", "leases", true⟩,
   ⟨"persistent-volumes", "", "persistentvolumes", false⟩,
   ⟨"persistent-volume-claims", "", "persistentvolumeclaims", true⟩,
   ⟨"storage-classes", "storage.k8s.io", "storageclasses", false⟩,
   ⟨"csi-drivers", "storage.k8s.io", "csidrivers", false⟩,
   ⟨"csi-nodes", "storage.k8s.io", "csinodes", false⟩,
   ⟨"volume-attachments", "storage.k8s.io", "volumeattachments", false⟩,
   ⟨"service-accounts", "", "serviceaccounts", true⟩,
   ⟨"resource-quotas", "", "resourcequotas", true⟩,
   ⟨"limit-ranges", "", "limitranges", true⟩,
   ⟨"hpas", "autoscaling", "horizontalpodautoscalers", true⟩,
   ⟨"pdbs", "policy", "poddisruptionbudgets", true⟩,
   ⟨"roles", "rbac.authorization.k8s.io", "roles", true⟩,
   ⟨"role-bindings", "rbac.authorization.k8s.io", "rolebindings", true⟩,
   ⟨"cluster-roles", "rbac.authorization.k8s.io", "clusterroles", false⟩,
   ⟨"cluster-role-bindings", "rbac.authorization.k8s.io", "clusterrolebindings", false⟩,
   ⟨"customresourcedefinitions", "apiextensions.k8s.io", "customresourcedefinitions", false⟩,
   ⟨"priority-classes", "scheduling.k8s.io", "priorityclasses", false⟩,
   ⟨"runtime-classes", "node.k8s.io", "runtimeclasses", false⟩,
   ⟨"mutating-webhook-configurations", "admissionregistration.k8s.io",
    "mutatingwebhookconfigurations", false⟩,
   ⟨"validating-webhook-configurations", "admissionregistration.k8s.io",
    "validatingwebhookconfigurations", false⟩]

/-- Whether a request may name single objects of the capability. -/
inductive ResourceNamePolicy where
  | ResourceNameEmpty
  | ResourceNameTarget
  deriving DecidableEq, Repr

inductive CapabilityScope where
  | ScopeCluster
  | ScopeNamespace
  deriving DecidableEq, Repr

structure CapabilitySpec where
  ID : String
  apiGroup : String
  resource : String
  subresource : String
  verb : String
  scope : CapabilityScope
  resourceNamePolicy : ResourceNamePolicy
  deriving DecidableEq, Repr

def baseCapabilityAllowlist : List CapabilitySpec :=
  [⟨"namespaces.list", "", "namespaces", "", "list", .ScopeCluster, .ResourceNameEmpty⟩,
   ⟨"pods.list", "", "pods", "", "list", .ScopeNamespace, .ResourceNameEmpty⟩,
   ⟨"pods.get", "", "pods", "", "get", .ScopeNamespace, .ResourceNameTarget⟩,
   ⟨"pods.watch", "", "pods", "", "watch", .ScopeNamespace, .ResourceNameEmpty⟩,
   ⟨"pods.logs.get", "", "pods", "log", "get", .ScopeNamespace, .ResourceNameTarget⟩,
   ⟨"pods.delete", "", "pods", "", "delete", .ScopeNamespace, .ResourceNameTarget⟩,
   ⟨"pods.exec.create", "", "pods", "exec", "create", .ScopeNamespace, .ResourceNameTarget⟩,
   ⟨"pods.portforward.create", "", "pods", "portforward", "create",
    .ScopeNamespace, .ResourceNameTarget⟩,
   ⟨"events.list", "", "events", "", "list", .ScopeNamespace, .ResourceNameEmpty⟩,
   ⟨"events.watch", "", "events", "", "watch", .ScopeNamespace, .ResourceNameEmpty⟩,
   ⟨"deployments.list", "apps", "deployments", "", "list", .ScopeNamespace, .ResourceNameEmpty⟩,
   ⟨"deployments.get", "apps", "deployments", "", "get", .ScopeNamespace, .ResourceNameTarget⟩,
   ⟨"deployments.watch", "apps", "deployments", "", "watch", .ScopeNamespace, .ResourceNameEmpty⟩,
   ⟨"deployments.update", "apps", "deployments", "", "update",
    .ScopeNamespace, .ResourceNameTarget⟩,
   ⟨"deployments.restart", "apps", "deployments", "", "patch",
    .ScopeNamespace, .ResourceNameTarget⟩,
   ⟨"deployments.scale", "apps", "deployments", "scale", "update",
    .ScopeNamespace, .ResourceNameTarget⟩,
   ⟨"deployments.delete", "apps", "deployments", "", "delete",
    .ScopeNamespace, .ResourceNameTarget⟩,
   ⟨"statefulsets.list", "apps", "statefulsets", "", "list", .ScopeNamespace, .ResourceNameEmpty⟩,
   ⟨"statefulsets.get", "apps", "statefulsets", "", "get", .ScopeNamespace, .ResourceNameTarget⟩,
   ⟨"statefulsets.watch", "apps", "statefulsets", "", "watch", .ScopeNamespace, .ResourceNameEmpty⟩,
   ⟨"statefulsets.restart", "apps", "statefulsets", "", "patch",
    .ScopeNamespace, .ResourceNameTarget⟩,
   ⟨"statefulsets.scale", "apps", "statefulsets", "scale", "update",
    .ScopeNamespace, .ResourceNameTarget⟩,
   ⟨"statefulsets.delete", "apps", "statefulsets", "", "delete",
    .ScopeNamespace, .ResourceNameTarget⟩,
   ⟨"daemonsets.list", "apps", "daemonsets", "", "list", .ScopeNamespace, .ResourceNameEmpty⟩,
   ⟨"daemonsets.get", "apps", "daemonsets", "", "get", .ScopeNamespace, .ResourceNameTarget⟩,
   ⟨"daemonsets.watch", "apps", "daemonsets", "", "watch", .ScopeNamespace, .ResourceNameEmpty⟩,
   ⟨"daemonsets.restart", "apps", "daemonsets", "", "patch", .ScopeNamespace, .ResourceNameTarget⟩,
   ⟨"daemonsets.delete", "apps", "daemonsets", "", "delete", .ScopeNamespace, .ResourceNameTarget⟩,
   ⟨"jobs.list", "batch", "jobs", "", "list", .ScopeNamespace, .ResourceNameEmpty⟩,
   ⟨"jobs.get", "batch", "jobs", "", "get", .ScopeNamespace, .ResourceNameTarget⟩,
   ⟨"jobs.watch", "batch", "jobs", "", "watch", .ScopeNamespace, .ResourceNameEmpty⟩,
   ⟨"jobs.delete", "batch", "jobs", "", "delete", .ScopeNamespace, .ResourceNameTarget⟩,
   ⟨"cronjobs.list", "batch", "cronjobs", "", "list", .ScopeNamespace, .ResourceNameEmpty⟩,
   ⟨"cronjobs.get", "batch", "cronjobs", "", "get", .ScopeNamespace, .ResourceNameTarget⟩,
   ⟨"cronjobs.watch", "batch", "cronjobs", "", "watch", .ScopeNamespace, .ResourceNameEmpty⟩,
   ⟨"cronjobs.suspend", "batch", "cronjobs", "", "patch", .ScopeNamespace, .ResourceNameTarget⟩,
   ⟨"cronjobs.runnow", "batch", "jobs", "", "create", .ScopeNamespace, .ResourceNameEmpty⟩,
   ⟨"cronjobs.delete", "batch", "cronjobs", "", "delete", .ScopeNamespace, .ResourceNameTarget⟩,
   ⟨"services.list", "", "services", "", "list", .ScopeNamespace, .ResourceNameEmpty⟩,
   ⟨"services.get", "", "services", "", "get", .ScopeNamespace, .ResourceNameTarget⟩,
   ⟨"services.watch", "", "services", "", "watch", .ScopeNamespace, .ResourceNameEmpty⟩,
   ⟨"ingresses.list", "networking.k8s.io", "ingresses", "", "list",
    .ScopeNamespace, .ResourceNameEmpty⟩,
   ⟨"ingresses.get", "networking.k8s.io", "ingresses", "", "get",
    .ScopeNamespace, .ResourceNameTarget⟩,
   ⟨"ingresses.watch", "networking.k8s.io", "ingresses", "", "watch",
    .ScopeNamespace, .ResourceNameEmpty⟩,
   ⟨"endpoint-slices.list", "discovery.k8s.io", "endpointslices", "", "list",
    .ScopeNamespace, .ResourceNameEmpty⟩,
   ⟨"endpoint-slices.get", "discovery.k8s.io", "endpointslices", "", "get",
    .ScopeNamespace, .ResourceNameTarget⟩,
   ⟨"endpoint-slices.watch", "discovery.k8s.io", "endpointslices", "", "watch",
    .ScopeNamespace, .ResourceNameEmpty⟩,
   ⟨"configmaps.list", "", "configmaps", "", "list", .ScopeNamespace, .ResourceNameEmpty⟩,
   ⟨"configmaps.get", "", "configmaps", "", "get", .ScopeNamespace, .ResourceNameTarget⟩,
   ⟨"configmaps.watch", "", "configmaps", "", "watch", .ScopeNamespace, .ResourceNameEmpty⟩,
   ⟨"secrets.list", "", "secrets", "", "list", .ScopeNamespace, .ResourceNameEmpty⟩,
   ⟨"secrets.get", "", "secrets", "", "get", .ScopeNamespace, .ResourceNameTarget⟩,
   ⟨"nodes.list", "", "nodes", "", "list", .ScopeCluster, .ResourceNameEmpty⟩,
   ⟨"nodes.get", "", "nodes", "", "get", .ScopeCluster, .ResourceNameTarget⟩,
   ⟨"persistentvolumes.list", "", "persistentvolumes", "", "list",
    .ScopeCluster, .ResourceNameEmpty⟩,
   ⟨"persistentvolumes.get", "", "persistentvolumes", "", "get",
    .ScopeCluster, .ResourceNameTarget⟩,
   ⟨"persistentvolumeclaims.list", "", "persistentvolumeclaims", "", "list",
    .ScopeNamespace, .ResourceNameEmpty⟩,
   ⟨"persistentvolumeclaims.get", "", "persistentvolumeclaims", "", "get",
    .ScopeNamespace, .ResourceNameTarget⟩,
   ⟨"storageclasses.list", "", "storageclasses", "", "list", .ScopeCluster, .ResourceNameEmpty⟩,
   ⟨"storageclasses.get", "", "storageclasses", "", "get", .ScopeCluster, .ResourceNameTarget⟩,
   ⟨"volumeattachments.list", "", "volumeattachments", "", "list",
    .ScopeCluster, .ResourceNameEmpty⟩,
   ⟨"volumeattachments.get", "", "volumeattachments", "", "get",
    .ScopeCluster, .ResourceNameTarget⟩,
   ⟨"csinodes.list", "", "csinodes", "", "list", .ScopeCluster, .ResourceNameEmpty⟩,
   ⟨"csinodes.get", "", "csinodes", "", "get", .ScopeCluster, .ResourceNameTarget⟩,
   ⟨"csidrivers.list", "", "csidrivers", "", "list", .ScopeCluster, .ResourceNameEmpty⟩,
   ⟨"csidrivers.get", "", "csidrivers", "", "get", .ScopeCluster, .ResourceNameTarget⟩,
   ⟨"leases.list", "coordination.k8s.io", "leases", "", "list",
    .ScopeNamespace, .ResourceNameEmpty⟩,
   ⟨"leases.get", "coordination.k8s.io", "leases", "", "get", .ScopeNamespace, .ResourceNameTarget⟩,
   ⟨"namespaces.get", "", "namespaces", "", "get", .ScopeCluster, .ResourceNameTarget⟩,
   ⟨"replicasets.list", "apps", "replicasets", "", "list", .ScopeNamespace, .ResourceNameEmpty⟩,
   ⟨"replicasets.get", "apps", "replicasets", "", "get", .ScopeNamespace, .ResourceNameTarget⟩,
   ⟨"replicasets.watch", "apps", "replicasets", "", "watch", .ScopeNamespace, .ResourceNameEmpty⟩,
   ⟨"replicasets.delete", "apps", "replicasets", "", "delete",
    .ScopeNamespace, .ResourceNameTarget⟩,
   ⟨"horizontalpodautoscalers.list", "autoscaling", "horizontalpodautoscalers", "", "list",
    .ScopeNamespace, .ResourceNameEmpty⟩,
   ⟨"horizontalpodautoscalers.get", "autoscaling", "horizontalpodautoscalers", "", "get",
    .ScopeNamespace, .ResourceNameTarget⟩,
   ⟨"poddisruptionbudgets.list", "policy", "poddisruptionbudgets", "", "list",
    .ScopeNamespace, .ResourceNameEmpty⟩,
   ⟨"poddisruptionbudgets.get", "policy", "poddisruptionbudgets", "", "get",
    .ScopeNamespace, .ResourceNameTarget⟩,
   ⟨"resourcequotas.list", "", "resourcequotas", "", "list", .ScopeNamespace, .ResourceNameEmpty⟩,
   ⟨"resourcequotas.get", "", "resourcequotas", "", "get", .ScopeNamespace, .ResourceNameTarget⟩,
   ⟨"limitranges.list", "", "limitranges", "", "list", .ScopeNamespace, .ResourceNameEmpty⟩,
   ⟨"limitranges.get", "", "limitranges", "", "get", .ScopeNamespace, .ResourceNameTarget⟩,
   ⟨"serviceaccounts.list", "", "serviceaccounts", "", "list", .ScopeNamespace, .ResourceNameEmpty⟩,
   ⟨"serviceaccounts.get", "", "serviceaccounts", "", "get", .ScopeNamespace, .ResourceNameTarget⟩,
   ⟨"roles.list", "rbac.authorization.k8s.io", "roles", "", "list",
    .ScopeNamespace, .ResourceNameEmpty⟩,
   ⟨"roles.get", "rbac.authorization.k8s.io", "roles", "", "get",
    .ScopeNamespace, .ResourceNameTarget⟩,
   ⟨"rolebindings.list", "rbac.authorization.k8s.io", "rolebindings", "", "list",
    .ScopeNamespace, .ResourceNameEmpty⟩,
   ⟨"rolebindings.get", "rbac.authorization.k8s.io", "rolebindings", "", "get",
    .ScopeNamespace, .ResourceNameTarget⟩,
   ⟨"clusterroles.list", "rbac.authorization.k8s.io", "clusterroles", "", "list",
    .ScopeCluster, .ResourceNameEmpty⟩,
   ⟨"clusterroles.get", "rbac.authorization.k8s.io", "clusterroles", "", "get",
    .ScopeCluster, .ResourceNameTarget⟩,
   ⟨"clusterrolebindings.list", "rbac.authorization.k8s.io", "clusterrolebindings", "", "list",
    .ScopeCluster, .ResourceNameEmpty⟩,
   ⟨"clusterrolebindings.get", "rbac.authorization.k8s.io", "clusterrolebindings", "", "get",
    .ScopeCluster, .ResourceNameTarget⟩,
   ⟨"customresourcedefinitions.list", "apiextensions.k8s.io", "customresourcedefinitions", "",
    "list", .ScopeCluster, .ResourceNameEmpty⟩,
   ⟨"customresourcedefinitions.get", "apiextensions.k8s.io", "customresourcedefinitions", "", "get",
    .ScopeCluster, .ResourceNameTarget⟩,
   ⟨"priorityclasses.list", "scheduling.k8s.io", "priorityclasses", "", "list",
    .ScopeCluster, .ResourceNameEmpty⟩,
   ⟨"priorityclasses.get", "scheduling.k8s.io", "priorityclasses", "", "get",
    .ScopeCluster, .ResourceNameTarget⟩,
   ⟨"runtimeclasses.list", "node.k8s.io", "runtimeclasses", "", "list",
    .ScopeCluster, .ResourceNameEmpty⟩,
   ⟨"runtimeclasses.get", "node.k8s.io", "runtimeclasses", "", "get",
    .ScopeCluster, .ResourceNameTarget⟩,
   ⟨"mutatingwebhookconfigurations.list", "admissionregistration.k8s.io",
    "mutatingwebhookconfigurations", "", "list", .ScopeCluster, .ResourceNameEmpty⟩,
   ⟨"mutatingwebhookconfigurations.get", "admissionregistration.k8s.io",
    "mutatingwebhookconfigurations", "", "get", .ScopeCluster, .ResourceNameTarget⟩,
   ⟨"validatingwebhookconfigurations.list", "admissionregistration.k8s.io",
    "validatingwebhookconfigurations", "", "list", .ScopeCluster, .ResourceNameEmpty⟩,
   ⟨"validatingwebhookconfigurations.get", "admissionregistration.k8s.io",
    "validatingwebhookconfigurations", "", "get", .ScopeCluster, .ResourceNameTarget⟩,
   ⟨"ingressclasses.list", "networking.k8s.io", "ingressclasses", "", "list",
    .ScopeCluster, .ResourceNameEmpty⟩,
   ⟨"ingressclasses.get", "networking.k8s.io", "ingressclasses", "", "get",
    .ScopeCluster, .ResourceNameTarget⟩,
   ⟨"networkpolicies.list", "networking.k8s.io", "networkpolicies", "", "list",
    .ScopeNamespace, .ResourceNameEmpty⟩,
   ⟨"networkpolicies.get", "networking.k8s.io", "networkpolicies", "", "get",
    .ScopeNamespace, .ResourceNameTarget⟩,
   ⟨"endpoints.list", "", "endpoints", "", "list", .ScopeNamespace, .ResourceNameEmpty⟩,
   ⟨"endpoints.get", "", "endpoints", "", "get", .ScopeNamespace, .ResourceNameTarget⟩,
   ⟨"metrics.pods.list", "metrics.k8s.io", "pods", "", "list", .ScopeNamespace, .ResourceNameEmpty⟩]

def updateSpecification (resource : Resource) : CapabilitySpec where
  ID := resource.UpdateCapability
  apiGroup := resource.group
  resource := resource.resource
  subresource := ""
  verb := "update"
  scope := if resource.namespaced then .ScopeNamespace else .ScopeCluster
  resourceNamePolicy := .ResourceNameTarget

def capabilityAllowlist : List CapabilitySpec :=
  baseCapabilityAllowlist ++ resources.map updateSpecification

end Kubepeep.Authorization
