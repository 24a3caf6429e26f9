import InventoryQuery.Main
import InventoryQuery.Proofs.Cache.Lifetime
import InventoryQuery.Proofs.Cache.Recency
import InventoryQuery.Proofs.CommandLine
import InventoryQuery.Proofs.Criteria.Joining
import InventoryQuery.Proofs.Criteria.Writing
import InventoryQuery.Proofs.Expression.Evaluation
import InventoryQuery.Proofs.Inventory.Placement
import InventoryQuery.Proofs.Inventory.Snapshot
import InventoryQuery.Proofs.Inventory.Splitting
import InventoryQuery.Proofs.Service.Color
import InventoryQuery.Proofs.Service.GiveAndTake
import InventoryQuery.Proofs.Service.Soundness
import InventoryQuery.Proofs.Service.Switches
import InventoryQuery.Proofs.Item.Path
import InventoryQuery.Proofs.Item.Enchantment
import InventoryQuery.Proofs.Item.Potion
import InventoryQuery.Proofs.Criteria.Resolving
import InventoryQuery.Proofs.Criteria.Counting
import InventoryQuery.Proofs.Criteria.Narrowing
import InventoryQuery.Proofs.Criteria.NormalForm
import InventoryQuery.Proofs.Expression.Rejection
import InventoryQuery.Proofs.Placeholder.Segments
import InventoryQuery.Proofs.Placeholder.Settling
import InventoryQuery.Proofs.Criteria.Equation
import InventoryQuery.Proofs.Expression.Nesting
import InventoryQuery.Proofs.Expression.Double
import InventoryQuery.Proofs.Expression.Integers
