import Aspects.Inquiry
import Aspects.Proofs.Proceeding.Refinement
import Aspects.Proofs.Caching.Flags
import Aspects.Proofs.Observing.Calls
import Aspects.Proofs.Advising.Events
import Aspects.Proofs.Lending.Calls
import Aspects.Proofs.Selecting.Memories
import Aspects.Proofs.Selecting.Stages
import Aspects.Proofs.Selecting.Residues
import Aspects.Proofs.Selecting.Recalling
import Aspects.Proofs.Selecting.Arguments
import Aspects.Proofs.Freezing.Immutability
import Aspects.Proofs.Exposing.Current
import Aspects.Proofs.Telling.Life
import Aspects.Proofs.Telling.Activation
import Aspects.Proofs.Telling.Changes
import Aspects.Proofs.Introducing.Histories
import Aspects.Proofs.Introducing.Interfaces
import Aspects.Proofs.Ordering.Sorting
import Aspects.Proofs.Ordering.Places
import Aspects.Proofs.Ordering.Settling
import Aspects.Proofs.Applying.Stances
import Aspects.Proofs.Ordering.Consistency
import Aspects.Proofs.Applying.Filtering
import Aspects.Proofs.Applying.Completeness
import Aspects.Proofs.Pooling.Courses
import Aspects.Proofs.Pooling.Clients
import Aspects.Proofs.Swapping.Hierarchy
import Aspects.Proofs.Swapping.Exchanges
import Aspects.Proofs.Concealing.Markers
import Aspects.Proofs.Lookup.Chains
import Aspects.Proofs.Returning.Stacks
import Aspects.Proofs.Registering.Growth
import Aspects.Proofs.Registering.Chains
import Aspects.Proofs.Freezing.Thawing
import Aspects.Proofs.Subtyping.Laws
import Aspects.Proofs.Dispatching.Ascents
import Aspects.Proofs.Counting.Notes
import Aspects.Proofs.Counting.Products
import Aspects.Proofs.Delegating.Returns
import Aspects.Proofs.Telling.Requests
import Aspects.Proofs.Conforming.Types
import Aspects.Proofs.Globbing.Compiling
import Aspects.Proofs.Reading.Executions
import Aspects.Proofs.Wrapping.Outcomes
import Aspects.Proofs.Wrapping.Filters
import Aspects.Proofs.Declaring.Builders
import Aspects.Proofs.Lookup.Agreement
