import DocumentStore.Handle
import DocumentStore.Hook.Recipe
import DocumentStore.Proofs.Lifetime
import DocumentStore.Proofs.Masking
import DocumentStore.Proofs.Updating
import DocumentStore.Proofs.Census
import DocumentStore.Proofs.Failing
import DocumentStore.Proofs.Hiding
import DocumentStore.Proofs.Sorted
import DocumentStore.Proofs.Interference
import DocumentStore.Proofs.Congruence
import DocumentStore.Proofs.Relations
import DocumentStore.Proofs.Composing
import DocumentStore.Proofs.Literals
import DocumentStore.Proofs.Seeing
import DocumentStore.Proofs.Drawing
import DocumentStore.Proofs.Fetching
import DocumentStore.Proofs.Answering
import DocumentStore.Proofs.Fieldwise
import DocumentStore.Proofs.Commuting
import DocumentStore.Proofs.Integers
import DocumentStore.Proofs.Listing
import DocumentStore.Proofs.Incrementing
import DocumentStore.Proofs.Comparing
import DocumentStore.Proofs.Sorting
import DocumentStore.Proofs.Pointing
import DocumentStore.Proofs.Redirecting
import DocumentStore.Proofs.Chronology
import DocumentStore.Proofs.Quoting
import DocumentStore.Proofs.Applying
import DocumentStore.Proofs.Nesting
import DocumentStore.Proofs.Rejecting
import DocumentStore.Proofs.Escaping
import DocumentStore.Proofs.Equivalence
import DocumentStore.Proofs.Decoding
import DocumentStore.Proofs.Descending
import DocumentStore.Proofs.Indexing
