import GuardWall.Decision.Sweep
import GuardWall.Enforcer.Serving
import GuardWall.Nftables.Expiry
import GuardWall.Nftables.Plans
import GuardWall.Nftables.Procedure
import GuardWall.Nftables.Wire
import GuardWall.Processor.Windows
import GuardWall.Reconcile.Barrier
import GuardWall.Reconcile.Budget
import GuardWall.Reconcile.Coalescing
import GuardWall.Reconcile.Enforceable
import GuardWall.Reconcile.Epochs
import GuardWall.Reconcile.Evidence
import GuardWall.Reconcile.Readback
import GuardWall.Source.Coverage
import GuardWall.Source.Generations
import GuardWall.Source.Truncation
import GuardWall.Store.Calls
