import PlacementCenter.Rust.Text

/-!
# The errors of the program

## Main definitions

* `Status`: the errors of the services
* `RobustMQError`: the errors the storage and consensus layers return
* `Status.toText`, `RobustMQError.toText`: their texts
-/

namespace PlacementCenter

/-- `tonic::Status`, as far as the handlers make one: a code with a message. -/
inductive Status where
  | cancelled (message : String)
  | invalidArgument (message : String)
  deriving DecidableEq, Repr

/-- The `Debug` of the code. -/
def Status.code : Status → String
  | cancelled _ => "Cancelled"
  | invalidArgument _ => "InvalidArgument"

def Status.message : Status → String
  | cancelled message => message
  | invalidArgument message => message

/-- The `Display` of a status. The details and the metadata, which the transport adds, are left
out. -/
def Status.toText (status : Status) : String :=
  "status: " ++ status.code ++ ", message: " ++ Rust.debugText status.message

/-- The errors of `common/base`, as far as the modelled code returns them. An error of a library
is kept as its text. -/
inductive RobustMQError where
  | parameterCannotBeNull (name : String)
  | commmonError (text : String)
  | rocksdbError (text : String)
  | clusterNoAvailableNode
  | serdeJsonError (text : String)
  | raftLogCommitTimeout (interface : String)
  | noAvailableGrpcConnection (module reason : String)
  | grpcServerStatus (status : Status)
  deriving DecidableEq, Repr

/-- The `Display` of an error. -/
def RobustMQError.toText : RobustMQError → String
  | parameterCannotBeNull name => "Parameter cannot be empty, parameter name: " ++ name
  | commmonError text => text
  | rocksdbError text => text
  | clusterNoAvailableNode => "No available nodes in the cluster"
  | serdeJsonError text => text
  | raftLogCommitTimeout interface =>
    "Description The interface " ++ interface ++ " submitted logs to the commit log"
  | noAvailableGrpcConnection module reason =>
    module ++ " connection pool has no connection information available. " ++ reason
  | grpcServerStatus status => "Grpc call of the node failed,Grpc status was " ++ status.toText

end PlacementCenter
