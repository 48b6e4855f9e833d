import Kubepeep.Lib.Bisect
import Kubepeep.Lib.Effect
import Kubepeep.Lib.Myers
import Kubepeep.Go.Json
import Kubepeep.Go.Slice
import Kubepeep.Dashboard.Redaction
import Kubepeep.Dashboard.ScanBudget
import Kubepeep.Dashboard.ScanHonest
import Kubepeep.Dashboard.Problems
import Kubepeep.Actions.ExecRuns
import Kubepeep.Actions.Fenced
import Kubepeep.Actions.PortForwardRuns
import Kubepeep.Actions.Replay
import Kubepeep.Authorization.Sharing
import Kubepeep.Logs.Agreement
import Kubepeep.Diff.Yaml
import Kubepeep.Resources.Admission
import Kubepeep.Resources.Drain
import Kubepeep.Resources.Sequential
import Kubepeep.Backend.GlobalDrain
import Kubepeep.Backend.Snapshots
import Kubepeep.Stream.Scope
import Kubepeep.Watch.Join
import Kubepeep.Watch.Authorize
import Kubepeep.Watch.Coalesce
import Kubepeep.Watch.Served
import Kubepeep.Stream.Resume
import Kubepeep.Stream.Topics
import Kubepeep.Stream.Sources
import Kubepeep.Web.BatchedPermissions
import Kubepeep.Web.LiveUpdates
import Kubepeep.Web.PodLogStream
import Kubepeep.Health.Snapshot
import Kubepeep.Updater.Update
import Kubepeep.Selection.Commits
import Kubepeep.Kubernetes.Fingerprint
import Kubepeep.Kubernetes.Leases
import Kubepeep.Runtime.Fence
import Kubepeep.Watch.Budget
import Kubepeep.Resources.PageSort
