import Mpsx.Bytes
import Mpsx.Binary.Half
import Mpsx.Decimal.Layout
import Mpsx.Text.Quoted
import Mpsx.Text.Utf8
import Mpsx.Model.Documentation
import Mpsx.Model.Tensor
import Mpsx.Model.Agreement
import Mpsx.Model.Describe
import Mpsx.Wire.Schema
import Mpsx.Trace
import Mpsx.Files.FileSystem
import Mpsx.Event
import Mpsx.Onnx.ExternalData
import Mpsx.Onnx.File
import Mpsx.Convert.Conversion
import Mpsx.Main
import Mpsx.Proofs.Wire.Encoded
import Mpsx.Proofs.Wire.Depth
import Mpsx.Proofs.Wire.RoundTrip
import Mpsx.Proofs.Wire.Views
import Mpsx.Proofs.Traced
import Mpsx.Proofs.Model.Subgraphs
import Mpsx.Proofs.Onnx.Representable
import Mpsx.Proofs.Onnx.Reading
import Mpsx.Proofs.Onnx.Written
import Mpsx.Proofs.Onnx.Accepted
import Mpsx.Proofs.Onnx.ReadBack
import Mpsx.Proofs.Onnx.RoundTrip
import Mpsx.Proofs.Convert.Blocks
import Mpsx.Proofs.Convert.Steps
import Mpsx.Proofs.Convert.Elements
import Mpsx.Proofs.Convert.Meaning
import Mpsx.Proofs.Convert.Transcode
import Mpsx.Proofs.Convert.Grouped
import Mpsx.Proofs.Convert.Refused
import Mpsx.Proofs.Files.Walking
import Mpsx.Proofs.Files.Writing
import Mpsx.Proofs.Command.Atomic
import Mpsx.Proofs.Command.Output
import Mpsx.Proofs.Files.Beneath
import Mpsx.Proofs.Onnx.Confined
import Mpsx.Proofs.Onnx.Supported
import Mpsx.Proofs.Convert.Descriptors
import Mpsx.Proofs.Wire.Appended
import Mpsx.Proofs.Wire.Undeclared
import Mpsx.Proofs.Onnx.Unread
import Mpsx.Proofs.Binary.Rounding
import Mpsx.Proofs.Binary.Narrow
import Mpsx.Proofs.Model.Documentation
import Mpsx.Proofs.Convert.Documentation
import Mpsx.Proofs.Convert.Scan
import Mpsx.Proofs.Convert.Inputs
import Mpsx.Proofs.Convert.RawForm
import Mpsx.Proofs.Convert.Bounds
import Mpsx.Proofs.Onnx.ExternalRange
import Mpsx.Proofs.Wire.Outcome
import Mpsx.Proofs.Onnx.Untyped
import Mpsx.Proofs.Binary.Widen
import Mpsx.Proofs.Convert.Exchange
import Mpsx.Proofs.Convert.Sizes
