import HiveMind.Kernel.ContextCrashes
import HiveMind.Kernel.Settlement
import HiveMind.Kernel.Delegation
import HiveMind.Scheduler.Resources
import HiveMind.Dag.Journal
import HiveMind.Workers.Settling
import HiveMind.Missions.Workspaces
import HiveMind.Candidates.Journal
import HiveMind.Reuse.Evidence
import HiveMind.Cohort.Stores
import HiveMind.Cohort.Resume
import HiveMind.Prompts.Crashes
import HiveMind.Prompts.Undisturbed
import HiveMind.Autonomy.Budget
import HiveMind.Autonomy.Charter
import HiveMind.Autopilot.ValidationLease
import HiveMind.Autopilot.Claims
import HiveMind.Autopilot.Diagnosis
import HiveMind.Autopilot.Completion
import HiveMind.Durable.Champions
import HiveMind.Durable.TenantMemory
import HiveMind.Healing.Returns
import HiveMind.Healing.Records
import HiveMind.Court.Decisions
import HiveMind.Ideas.Histories
import HiveMind.Delivery.Promises
import HiveMind.Kernel.Independence
import HiveMind.Kernel.Adoption
import HiveMind.Missions.States
import HiveMind.Kernel.PlanOrder
import HiveMind.Portable.Rounds
import HiveMind.Kernel.MemoryExpiry
import HiveMind.Integration.Reconcile
import HiveMind.Lineage.Generations
import HiveMind.Reference.OodaContracts
import HiveMind.Reference.Catalog
import HiveMind.Autopilot.CommitLog
import HiveMind.Host.Usage
