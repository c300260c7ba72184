import Perimeter.Batch.Basic
import Perimeter.Batch.Discovery
import Perimeter.Batch.Progress
import Perimeter.Batch.Run
import Perimeter.Bench.Basic
import Perimeter.Bench.Shapes
import Perimeter.Bench.Suite
import Perimeter.Blob.Basic
import Perimeter.Blob.Find
import Perimeter.Buffer.Pool
import Perimeter.Chain
import Perimeter.Colour
import Perimeter.Command.Batches
import Perimeter.Command.Console
import Perimeter.Command.Flag
import Perimeter.Command.Job
import Perimeter.Command.Run
import Perimeter.Command.Shapes
import Perimeter.Command.Tree
import Perimeter.Command.Usage
import Perimeter.Command.Walks
import Perimeter.Crew.Basic
import Perimeter.Crew.Steps
import Perimeter.Csv
import Perimeter.Data
import Perimeter.Decimal.Layout
import Perimeter.Decimal.Shortest
import Perimeter.Dice
import Perimeter.Duration
import Perimeter.Edge
import Perimeter.Failure
import Perimeter.Fault
import Perimeter.FileTree.Basic
import Perimeter.FileTree.Path
import Perimeter.FileTree.Pattern
import Perimeter.Geometry.Hull
import Perimeter.Geometry.MinRect
import Perimeter.Geometry.Plane
import Perimeter.Geometry.Polyline
import Perimeter.Grid
import Perimeter.Heading
import Perimeter.Image.Basic
import Perimeter.Image.Binarize
import Perimeter.Image.File
import Perimeter.Image.Overlay
import Perimeter.Image.Png
import Perimeter.Json.Basic
import Perimeter.Json.Fields
import Perimeter.Json.Parser
import Perimeter.Log
import Perimeter.Main
import Perimeter.Misuse
import Perimeter.Numeral
import Perimeter.Packed.Bits
import Perimeter.Packed.Checksum
import Perimeter.Packed.Deflate
import Perimeter.Packed.PrefixCode
import Perimeter.Picture
import Perimeter.Raster.Basic
import Perimeter.Region
import Perimeter.Report.Document
import Perimeter.Report.Drawing
import Perimeter.Report.Format
import Perimeter.Report.Prose
import Perimeter.Report.Reader
import Perimeter.Report.Table
import Perimeter.Seed
import Perimeter.Service.Answer
import Perimeter.Service.Basic
import Perimeter.Service.Route
import Perimeter.Service.Stream
import Perimeter.Settings.Basic
import Perimeter.Settings.Decode
import Perimeter.Settings.Layers
import Perimeter.Settings.Load
import Perimeter.Settings.Patch
import Perimeter.Shape
import Perimeter.Text.Base64
import Perimeter.Text.Lowercase
import Perimeter.Text.Printable
import Perimeter.Text.Quoted
import Perimeter.Text.Ranges
import Perimeter.Text.Utf8
import Perimeter.Trace
import Perimeter.Tree
import Perimeter.Version
import Perimeter.Walk
import Perimeter.Web.Address
import Perimeter.Web.Form
import Perimeter.Web.MediaType
import Perimeter.Web.Message
import Perimeter.Web.Percent
import Perimeter.Web.Target
import Perimeter.Word
import Perimeter.Yaml.Basic
import Perimeter.Yaml.Cursor
import Perimeter.Yaml.Letter
import Perimeter.Yaml.Node.Basic
import Perimeter.Yaml.Node.Parser
import Perimeter.Yaml.Node.Value
import Perimeter.Yaml.Printer
import Perimeter.Yaml.Reader
import Perimeter.Yaml.Scalar
import Perimeter.Yaml.Timestamp
import Perimeter.Yaml.Token
import Perimeter.Yaml.Token.Block
import Perimeter.Yaml.Token.Flowing
import Perimeter.Yaml.Token.Lexer
import Perimeter.Yaml.Token.Tag
import Perimeter.Proofs.Walk.Cycle
import Perimeter.Proofs.Walk.Run
import Perimeter.Proofs.Trace.Request
import Perimeter.Proofs.Walk.Visibility
import Perimeter.Proofs.Trace.Resume
import Perimeter.Proofs.Trace.Visits
import Perimeter.Proofs.Trace.Splice
import Perimeter.Proofs.Plane.Rotation
import Perimeter.Proofs.Walk.Turning
import Perimeter.Proofs.Walk.Length
import Perimeter.Proofs.Walk.Suppression
import Perimeter.Proofs.Walk.Separation
import Perimeter.Proofs.Walk.Winding
import Perimeter.Proofs.Region.Connected
import Perimeter.Proofs.Region.Flood
import Perimeter.Proofs.Region.Labels
import Perimeter.Proofs.Region.Words
import Perimeter.Proofs.Trace.Closing
import Perimeter.Proofs.Blob.Find
import Perimeter.Proofs.Blob.Turning
import Perimeter.Proofs.Blob.Separation
import Perimeter.Proofs.Blob.Partition
import Perimeter.Proofs.Trace.Session
import Perimeter.Proofs.Service.Stream
import Perimeter.Proofs.Crew.Report
import Perimeter.Proofs.Crew.Run
import Perimeter.Proofs.Geometry.Hull
import Perimeter.Proofs.Chain.Runs
import Perimeter.Proofs.Blob.Compression
import Perimeter.Proofs.Trace.Reversal
import Perimeter.Proofs.Raster.Storage
import Perimeter.Proofs.Raster.Layouts
import Perimeter.Proofs.Batch.Documents
import Perimeter.Proofs.Batch.Run
import Perimeter.Proofs.Geometry.Translation
import Perimeter.Proofs.Region.Padding
import Perimeter.Proofs.Walk.Padding
import Perimeter.Proofs.Blob.Contours
import Perimeter.Proofs.Blob.Padding
import Perimeter.Proofs.Trace.Rotation
import Perimeter.Proofs.Trace.Path
import Perimeter.Proofs.Chain.Idempotence
import Perimeter.Proofs.Chain.Expansion
import Perimeter.Proofs.Chain.Lifecycle
import Perimeter.Proofs.Geometry.Outline
import Perimeter.Proofs.Geometry.Tolerance
import Perimeter.Proofs.Geometry.Selection
import Perimeter.Proofs.Trace.Seeding
import Perimeter.Proofs.Raster.Safety
import Perimeter.Proofs.Raster.Writes
import Perimeter.Proofs.Trace.Locality
import Perimeter.Proofs.Grid
import Perimeter.Proofs.Region.Lines
import Perimeter.Proofs.FileTree.Names
import Perimeter.Proofs.Shape.Checkerboard
import Perimeter.Proofs.Shape.Ring
import Perimeter.Proofs.FileTree.Write
import Perimeter.Proofs.Batch.Overlays
import Perimeter.Proofs.Buffer.Reuse
