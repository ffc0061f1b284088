import HeaderDocs.Main
import HeaderDocs.Proofs.Comment.Links
import HeaderDocs.Proofs.Walk.Causality
import HeaderDocs.Proofs.Walk.Revisit
import HeaderDocs.Proofs.Walk.Uniqueness
import HeaderDocs.Site.Hooks
import HeaderDocs.Proofs.Walk.Interruption
import HeaderDocs.Proofs.Walk.Linking
import HeaderDocs.Proofs.Site.Walk
import HeaderDocs.Proofs.Site.Pages
import HeaderDocs.Proofs.Site.Links
import HeaderDocs.Proofs.Declaration.Blocks
import HeaderDocs.Proofs.Files.Relative
import HeaderDocs.Proofs.Site.Landing
import HeaderDocs.Proofs.Comment.Stacking
import HeaderDocs.Proofs.Comment.Liveness
import HeaderDocs.Proofs.Comment.Mentions
import HeaderDocs.Proofs.Site.Partition
import HeaderDocs.Proofs.Comment.Erasure
import HeaderDocs.Proofs.Comment.Decoration
import HeaderDocs.Proofs.Comment.Slashes
import HeaderDocs.Proofs.Comment.Gaps
import HeaderDocs.Proofs.Walk.Selection
import HeaderDocs.Proofs.Site.Traversal
import HeaderDocs.Proofs.Files.Normal
import HeaderDocs.Proofs.Site.Crossing
import HeaderDocs.Proofs.Site.Labels
import HeaderDocs.Proofs.Site.Skipping
import HeaderDocs.Proofs.Site.Configuring
import HeaderDocs.Proofs.Files.Directories
import HeaderDocs.Proofs.Build.Staging
import HeaderDocs.Proofs.Site.Temporary
import HeaderDocs.Proofs.Site.Nameless
import HeaderDocs.Proofs.Build.Assignments
import HeaderDocs.Proofs.Build.Commands
import HeaderDocs.Proofs.Build.Features
import HeaderDocs.Proofs.Site.Discovery
import HeaderDocs.Proofs.Comment.Repetition
import HeaderDocs.Proofs.Build.Patching
import HeaderDocs.Proofs.Site.Climbing
