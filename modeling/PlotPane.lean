import PlotPane.Text.Blank
import PlotPane.Number.Rounding
import PlotPane.Number.Quantity
import PlotPane.Number.Binary
import PlotPane.Number.Shortest
import PlotPane.Number.Layout
import PlotPane.Number.Literal
import PlotPane.Number.Scalar
import PlotPane.Number.Double
import PlotPane.Number.Exact
import PlotPane.Plane
import PlotPane.View.Screen
import PlotPane.View.Basic
import PlotPane.View.Mapping
import PlotPane.Variable.Basic
import PlotPane.Variable.Handle
import PlotPane.Variable.Registry
import PlotPane.Redraw
import PlotPane.Plotter.Call
import PlotPane.Plotter.Style
import PlotPane.Gesture
import PlotPane.Preferences
import PlotPane.Json.Value
import PlotPane.Json.Token
import PlotPane.Json.Reader
import PlotPane.Json.Record
import PlotPane.Wire.Basic
import PlotPane.Settings
import PlotPane.Session.Action
import PlotPane.Session.Event
import PlotPane.Session.Basic
import PlotPane.Session.Turn
import PlotPane.Session.Handle
import PlotPane.Wire.Action
import PlotPane.Page.Storage
import PlotPane.Page.App
import PlotPane.Proofs.Effects
import PlotPane.Proofs.Answers
import PlotPane.Proofs.SlotMirror
import PlotPane.Proofs.Frames
import PlotPane.Proofs.Verdicts
import PlotPane.Proofs.Rounding
import PlotPane.Proofs.ViewMirror
import PlotPane.Proofs.Identities
import PlotPane.Proofs.Alterations
import PlotPane.Proofs.Markers
import PlotPane.Proofs.Requests
import PlotPane.Proofs.Drags
import PlotPane.Proofs.Panel
import PlotPane.Proofs.PanelMirror
import PlotPane.Proofs.Contents
import PlotPane.Proofs.Finiteness
import PlotPane.Proofs.Views
import PlotPane.Proofs.ExactViews
import PlotPane.Proofs.Refusals
import PlotPane.Proofs.Gestures
import PlotPane.Proofs.Following
import PlotPane.Proofs.Sizing
import PlotPane.Proofs.Nearest
import PlotPane.Proofs.Numerals
import PlotPane.Proofs.ReadBack
import PlotPane.Proofs.Grammar
import PlotPane.Proofs.JsonTexts
import PlotPane.Proofs.ActionTexts
import PlotPane.Proofs.FieldTexts
import PlotPane.Proofs.Stores
import PlotPane.Proofs.NearestOrder
import PlotPane.Proofs.Pending
import PlotPane.Proofs.Restarts
import PlotPane.Proofs.Doubles
import PlotPane.Proofs.Sums
import PlotPane.Proofs.Bounds
import PlotPane.Proofs.Topmost
import PlotPane.Proofs.DragPaths
import PlotPane.Proofs.FieldEdits
import PlotPane.Proofs.Ranges
import PlotPane.Proofs.Commuting
import PlotPane.Proofs.FixedTexts
import PlotPane.Proofs.Labels
import PlotPane.Proofs.Records
import PlotPane.Proofs.SettingsTexts
