import SceneTree.Files.Tree
import SceneTree.Main
import SceneTree.Material.Identify
import SceneTree.Projection
import SceneTree.Proofs.Edit.Commute
import SceneTree.Proofs.Edit.Deletion
import SceneTree.Proofs.Edit.Entries
import SceneTree.Proofs.Edit.Faithful
import SceneTree.Proofs.Edit.History
import SceneTree.Proofs.Edit.Listing
import SceneTree.Proofs.Edit.Names
import SceneTree.Proofs.Edit.Patch
import SceneTree.Proofs.Edit.Recorded
import SceneTree.Proofs.Edit.Shut
import SceneTree.Proofs.Edit.Subtree
import SceneTree.Proofs.Edit.Tree
import SceneTree.Proofs.Flatten.Cache
import SceneTree.Proofs.Flatten.Children
import SceneTree.Proofs.Flatten.Descendants
import SceneTree.Proofs.Flatten.Inherited
import SceneTree.Proofs.Flatten.Settled
import SceneTree.Proofs.Flatten.Spread
import SceneTree.Proofs.Flatten.Transform
import SceneTree.Proofs.Flatten.Visibility
import SceneTree.Proofs.Locator.Canonical
import SceneTree.Proofs.Locator.Minimal
import SceneTree.Proofs.Locator.Moved
import SceneTree.Proofs.Material.Call
import SceneTree.Proofs.Material.Consistent
import SceneTree.Proofs.Material.Entries
import SceneTree.Proofs.Material.Identify
import SceneTree.Proofs.Material.LastWrite
import SceneTree.Proofs.Material.NodeNames
import SceneTree.Proofs.Material.NodeType
import SceneTree.Proofs.Material.Part
import SceneTree.Proofs.Material.Reads
import SceneTree.Proofs.Material.Request
import SceneTree.Proofs.Material.Write
import SceneTree.Proofs.Path.Text
import SceneTree.Proofs.Path.Written
import SceneTree.Proofs.Projection.Accepted
import SceneTree.Proofs.Projection.Invalidation
import SceneTree.Proofs.Projection.Layout
import SceneTree.Proofs.Projection.Reached
import SceneTree.Proofs.Projection.Rejected
import SceneTree.Proofs.Projection.Served
import SceneTree.Proofs.Projection.Tree
import SceneTree.Proofs.Sampled.Composition
import SceneTree.Proofs.Sampled.Latest
import SceneTree.Proofs.Sampled.Merge
import SceneTree.Proofs.Sampled.Order
import SceneTree.Proofs.Sampled.Times
import SceneTree.Proofs.Sampled.Window
import SceneTree.Proofs.Scene.Load
import SceneTree.Proofs.Source.Evaluation
import SceneTree.Proofs.Source.Leaves
