import Mathlib

/-!
# The budgets of the dashboard

`internal/services/dashboard/budgets.go`: the ceilings of a log scan and the validated request.
Durations are in seconds.
-/

namespace Kubepeep.Dashboard

def MaximumLogLineBytes : Int := 64 * 2 ^ 10

def MaximumContainerBytes : Int := 2 * 2 ^ 20

def MaximumLogScanBytes : Int := 10 * 2 ^ 20

def DefaultMaxContainers : Int := 100

def MaximumMaxContainers : Int := 400

def DefaultBlockTimeout : Int := 8

structure LogBudget where
  timeout : Int
  maxLineBytes : Int
  maxContainerBytes : Int
  maxScanBytes : Int
  maxContainers : Int
  deriving DecidableEq, Repr

def DefaultLogBudget : LogBudget :=
  ⟨DefaultBlockTimeout, MaximumLogLineBytes, MaximumContainerBytes, MaximumLogScanBytes,
    DefaultMaxContainers⟩

def orDefault (value maximum default : Int) : Int :=
  if value ≤ 0 ∨ value > maximum then default else value

def LogBudget.normalized (b : LogBudget) : LogBudget :=
  let d := DefaultLogBudget
  { timeout := orDefault b.timeout DefaultBlockTimeout d.timeout
    maxLineBytes := orDefault b.maxLineBytes MaximumLogLineBytes d.maxLineBytes
    maxContainerBytes := orDefault b.maxContainerBytes MaximumContainerBytes d.maxContainerBytes
    maxScanBytes := orDefault b.maxScanBytes MaximumLogScanBytes d.maxScanBytes
    maxContainers := orDefault b.maxContainers MaximumMaxContainers d.maxContainers }

theorem orDefault_pos {value maximum default : Int} (h : 0 < default) :
    0 < orDefault value maximum default := by
  unfold orDefault
  split <;> omega

end Kubepeep.Dashboard
