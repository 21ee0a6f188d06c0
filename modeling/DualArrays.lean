import DualArrays.Branch
import DualArrays.Config.Basic
import DualArrays.Config.Toml
import DualArrays.Decimal.Binary
import DualArrays.Decimal.Digits
import DualArrays.Decimal.Text
import DualArrays.Display.Multiarray
import DualArrays.Display.Tolerance
import DualArrays.Error
import DualArrays.Kernel.ComplexStep
import DualArrays.Kernel.Dual
import DualArrays.Kernel.Expr
import DualArrays.Layout
import DualArrays.Linalg.Blas
import DualArrays.Matrix.Basic
import DualArrays.Multiarray.Basic
import DualArrays.Nested
import DualArrays.Reduce
import DualArrays.Scalar.Basic
import DualArrays.Scalar.Complex
import DualArrays.Scalar.Real
import DualArrays.Script.Answer
import DualArrays.Script.Containers
import DualArrays.Script.Decode
import DualArrays.Script.Json
import DualArrays.Script.Json.Read
import DualArrays.Script.Kernels
import DualArrays.Script.Matrices
import DualArrays.Script.Multiarrays
import DualArrays.Script.Nesting
import DualArrays.Script.Products
import DualArrays.Script.Scalars
import DualArrays.Script.Sequence
import DualArrays.Script.Settings
import DualArrays.Script.Sparse
import DualArrays.Script.Vectors
import DualArrays.Sparse.Csr
import DualArrays.Storage
import DualArrays.Vector.Basic
import DualArrays.VectorArray
import DualArrays.Proofs.FloatEncoding
import DualArrays.Proofs.FloatOrder
import DualArrays.Proofs.FloatMaximum
import DualArrays.Proofs.Outcomes
import DualArrays.Proofs.MatrixEntries
import DualArrays.Proofs.DenseKernels
import DualArrays.Proofs.Jacobian
import DualArrays.Proofs.CsrRows
import DualArrays.Proofs.ZeroAdd
import DualArrays.Proofs.CsrDense
import DualArrays.Proofs.NestedRelease
import DualArrays.Proofs.CsrReaders
import DualArrays.Proofs.InPlaceWrites
import DualArrays.Proofs.ProtocolInvariants
import DualArrays.Proofs.FloatArithmetic
import DualArrays.Proofs.DualityCheck
import DualArrays.Proofs.CsrLookup
import DualArrays.Proofs.MultiarrayProducts
import DualArrays.Proofs.MatrixWrites
import DualArrays.Proofs.IndexedSort
import DualArrays.Proofs.LayoutConversion
import DualArrays.Proofs.Views
import DualArrays.Proofs.CsrConstructors
import DualArrays.Proofs.TrailingProducts
import DualArrays.Proofs.RaggedFlattening
import DualArrays.Proofs.ToleranceDisplay
import DualArrays.Proofs.BasisSize
import DualArrays.Proofs.RealPartChoices
import DualArrays.Proofs.RepeatedVectors
import DualArrays.Proofs.OffsetBijection
import DualArrays.Proofs.ExtremumScans
import DualArrays.Proofs.FloatRounding
import DualArrays.Proofs.UnpackedArithmetic
import DualArrays.Proofs.FloatErrorBounds
import DualArrays.Proofs.HypotKernel
import DualArrays.Proofs.ComplexModulus
