import PanelLayout.CommandLine.Directory
import PanelLayout.Double.Encoding
import PanelLayout.Drawing
import PanelLayout.HitTest
import PanelLayout.Main
import PanelLayout.Preview
import PanelLayout.Scene
import PanelLayout.Proofs.Expression.Evaluation
import PanelLayout.Proofs.Expression.Rendering
import PanelLayout.Proofs.Component.OwnSize
import PanelLayout.Proofs.Grid.Alignment
import PanelLayout.Proofs.Grid.Resizing
import PanelLayout.Proofs.Document.Nodes
import PanelLayout.Proofs.Component.EndCoordinate
import PanelLayout.Proofs.Double.Pixels
import PanelLayout.Proofs.Document.Loading
import PanelLayout.Proofs.Document.Enumeration
import PanelLayout.Proofs.Scene.Refusal
import PanelLayout.Proofs.Scene.Extent
import PanelLayout.Proofs.Scene.Membership
import PanelLayout.Proofs.Preview.Status
import PanelLayout.Proofs.Placement.Moving
import PanelLayout.Proofs.Scene.Agreement
import PanelLayout.Proofs.Double.Order
import PanelLayout.Proofs.Grid.Shares
import PanelLayout.Proofs.Grid.Operations
import PanelLayout.Proofs.Grid.Overlap
import PanelLayout.Proofs.Grid.Containment
import PanelLayout.Proofs.HitTest
import PanelLayout.Proofs.Document.Rearrangement
import PanelLayout.Proofs.Transposition
import PanelLayout.Proofs.Expression.Scoping
import PanelLayout.Proofs.Placement.Unresolved
import PanelLayout.Proofs.Document.Unresolved
import PanelLayout.Proofs.Expression.Numbers
import PanelLayout.Proofs.Expression.Preservation
import PanelLayout.Proofs.Expression.Missing
import PanelLayout.Proofs.Component.Configuration
import PanelLayout.Proofs.Grid.Refusal
import PanelLayout.Proofs.Expression.EndMark
import PanelLayout.Proofs.Expression.Tiling
import PanelLayout.Proofs.Expression.Marker
import PanelLayout.Proofs.Variables
import PanelLayout.Proofs.Expression.Relevance
import PanelLayout.Proofs.Expression.Pointing
import PanelLayout.Proofs.Expression.SearchDepth
import PanelLayout.Proofs.Grid.Fairness
import PanelLayout.Proofs.Expression.Literals
import PanelLayout.Proofs.Component.Markers
import PanelLayout.Proofs.Drawing.Elements
import PanelLayout.Proofs.Double.HalfUp
import PanelLayout.Proofs.Fitting
import PanelLayout.Proofs.TextScale
import PanelLayout.Proofs.Grid.Weights
import PanelLayout.Proofs.Scene.LoadedSearch
