import PanZoom.Main
import PanZoom.Proofs.Exact.Anchor
import PanZoom.Proofs.Viewer.Current
import PanZoom.Proofs.Elementary.Power
import PanZoom.Proofs.Camera.Loop
import PanZoom.Proofs.Camera.Bounds
import PanZoom.Proofs.Input.Conflicts
import PanZoom.Proofs.Scene.Index
import PanZoom.Proofs.Scene.Handles
import PanZoom.Proofs.Exact.Center
import PanZoom.Proofs.Viewer.Redraw
import PanZoom.Proofs.Viewer.Rotation
import PanZoom.Proofs.Viewer.Sizes
import PanZoom.Proofs.Format.Config
import PanZoom.Proofs.Format.Events
import PanZoom.Proofs.Camera.Fitted
import PanZoom.Proofs.Config.FrameInterval
import PanZoom.Proofs.Format.Layout
import PanZoom.Proofs.Format.Overrides
import PanZoom.Proofs.Replay.Report
import PanZoom.Proofs.Exact.Corners
import PanZoom.Proofs.Viewer.KeyPress
import PanZoom.Proofs.Exact.Rotating
import PanZoom.Proofs.Exact.Rendering
import PanZoom.Proofs.Exact.KeyZooms
import PanZoom.Proofs.Exact.Panning
import PanZoom.Proofs.Camera.OwnNode
import PanZoom.Proofs.Viewer.HeldPanning
import PanZoom.Proofs.Viewer.Ignored
import PanZoom.Proofs.Viewer.Projection
