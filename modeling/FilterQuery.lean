import FilterQuery.Main
import FilterQuery.Proofs.Agreement
import FilterQuery.Proofs.Blame
import FilterQuery.Proofs.Documents
import FilterQuery.Proofs.DottedPaths
import FilterQuery.Proofs.SelectLists
import FilterQuery.Proofs.Endings
import FilterQuery.Proofs.Inserts
import FilterQuery.Proofs.Loading
import FilterQuery.Proofs.Scopes
import FilterQuery.Proofs.WholeNumbers
import FilterQuery.Proofs.Recovery
import FilterQuery.Proofs.Cutting
import FilterQuery.Proofs.Positions
import FilterQuery.Proofs.Respacing
import FilterQuery.Proofs.ExactNumbers
import FilterQuery.Proofs.Rereading
import FilterQuery.Proofs.ErrorPlaces
import FilterQuery.Proofs.Composition
import FilterQuery.Proofs.Cursor
