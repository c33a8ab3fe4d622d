import ScriptBoundary.Expr.Native
import ScriptBoundary.Proofs.Admission
import ScriptBoundary.Proofs.Arguments
import ScriptBoundary.Proofs.Assignability
import ScriptBoundary.Proofs.Bridging
import ScriptBoundary.Proofs.Cycles
import ScriptBoundary.Proofs.Dates
import ScriptBoundary.Proofs.Dispatch
import ScriptBoundary.Proofs.Failures
import ScriptBoundary.Proofs.Filling
import ScriptBoundary.Proofs.Independence
import ScriptBoundary.Proofs.Integers
import ScriptBoundary.Proofs.Interfaces
import ScriptBoundary.Proofs.JsonTrees
import ScriptBoundary.Proofs.Kinds
import ScriptBoundary.Proofs.NormalForms
import ScriptBoundary.Proofs.OptIn
import ScriptBoundary.Proofs.Overloads
import ScriptBoundary.Proofs.PlainObjects
import ScriptBoundary.Proofs.Planning
import ScriptBoundary.Proofs.PropertyBags
import ScriptBoundary.Proofs.Restating
import ScriptBoundary.Proofs.Settling
import ScriptBoundary.Proofs.Subscriptions
import ScriptBoundary.Proofs.Undeclared
import ScriptBoundary.Session
