import Moon.Proofs.TaskHashing
import Moon.Proofs.ActionPipeline
import Moon.Proofs.Builder.Ignored
import Moon.Proofs.Builder.Permutation
import Moon.Proofs.Integrity
import Moon.Proofs.CacheTiers
import Moon.Proofs.PipelineRun
import Moon.Proofs.Builder.Closure
import Moon.Proofs.Isolation
import Moon.Proofs.Completion
import Moon.Proofs.Builder.SetupCalls
import Moon.Proofs.AsyncTracker
import Moon.Proofs.WorkspaceCache
import Moon.Proofs.WorkspaceProjects
import Moon.Proofs.DepsOrder
import Moon.Proofs.TaskLoader
import Moon.Proofs.JobSlices
import Moon.Proofs.ExplicitDeps
import Moon.Proofs.TaskExtends
import Moon.Proofs.TokenExpander
import Moon.Proofs.QueryAgreement
import Moon.Proofs.GlobalEnvBag
import Moon.Proofs.DaemonConnector
import Moon.Proofs.CommandCache
import Moon.Proofs.ToolchainUsage
import Moon.Proofs.NodeMap
import Moon.Proofs.Builder.Depths
import Moon.Proofs.Builder.SerialOrder
import Moon.Proofs.FinalGraph
import Moon.Proofs.TargetText
import Moon.Proofs.GraphTraits
import Moon.Proofs.DotEnv
import Moon.Proofs.ProjectLookups
import Moon.Proofs.TaskExecutor
import Moon.Proofs.Unhydrated
import Moon.Proofs.OutputHydrater
import Moon.Proofs.Batches
import Moon.Proofs.RemoteResult
import Moon.Proofs.ContentHash
import Moon.Proofs.InputFiles
import Moon.Proofs.Path
import Moon.Proofs.GitTree
import Moon.Proofs.Codegen
