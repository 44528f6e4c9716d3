import TreeLens.Linking
import TreeLens.Main
import TreeLens.Session.Background
import TreeLens.Session.Dispatch
import TreeLens.Session.Operation
import TreeLens.Tree.Builder
import TreeLens.Tree.Validity
import TreeLens.Proofs.Text.Boundary
import TreeLens.Proofs.Text.Inverse
import TreeLens.Proofs.Naming
import TreeLens.Proofs.Selection.Step
import TreeLens.Proofs.Selection.Settling
import TreeLens.Proofs.Selection.RoundTrip
import TreeLens.Proofs.Selection.Normal
import TreeLens.Proofs.Selection.SameBytes
import TreeLens.Proofs.Selection.Transparency
import TreeLens.Proofs.Session.Coherence
import TreeLens.Proofs.Session.Freshness
import TreeLens.Proofs.Session.Pending
import TreeLens.Proofs.Tree.Ancestry
import TreeLens.Proofs.Tree.Lookup
import TreeLens.Proofs.Lowering.Tiling
import TreeLens.Proofs.Lowering.Layout
import TreeLens.Proofs.Lowering.Contents
import TreeLens.Proofs.Lowering.Alignment
import TreeLens.Proofs.Lowering.Leaves
import TreeLens.Proofs.Lowering.Selectable
import TreeLens.Proofs.Tree.Children
import TreeLens.Proofs.Tree.Building
import TreeLens.Proofs.Session.Observers
import TreeLens.Proofs.Session.Staleness
import TreeLens.Proofs.Session.Provenance
import TreeLens.Proofs.Session.Supersession
import TreeLens.Proofs.Text.Correspondence
import TreeLens.Proofs.Tree.Pairs
import TreeLens.Proofs.Selection.Canonical
import TreeLens.Proofs.Tree.Covering
import TreeLens.Proofs.Selection.Enclosing
import TreeLens.Proofs.Tree.Linking
import TreeLens.Proofs.Selection.Outcome
import TreeLens.Proofs.Selection.Repetition
import TreeLens.Proofs.Session.Afresh
import TreeLens.Proofs.Selection.Clamping
import TreeLens.Proofs.Lowering.Details
import TreeLens.Proofs.Tree.Descent
import TreeLens.Proofs.Settings.Layering
import TreeLens.Proofs.Tree.Indentation
import TreeLens.Proofs.CommandLine.Ranges
import TreeLens.Proofs.Language.Accounts
import TreeLens.Proofs.Dump
