import TwinObject.Proofs.AttributeLaws
import TwinObject.Proofs.BaseCalls
import TwinObject.Proofs.Callers
import TwinObject.Proofs.Calls
import TwinObject.Proofs.Compositions
import TwinObject.Proofs.Copies
import TwinObject.Proofs.Declarations
import TwinObject.Proofs.FixedPoints
import TwinObject.Proofs.Frames
import TwinObject.Proofs.Handles
import TwinObject.Proofs.Inheritance
import TwinObject.Proofs.Initialization
import TwinObject.Proofs.Locality
import TwinObject.Proofs.Locks
import TwinObject.Proofs.Members
import TwinObject.Proofs.Neutral
import TwinObject.Proofs.Reproduction
import TwinObject.Proofs.Results
import TwinObject.Proofs.Returns
import TwinObject.Proofs.Storage
import TwinObject.Proofs.StorageOrder
import TwinObject.Proofs.Vectors
import TwinObject.Proofs.Visibility
