import VmHandler.Main
import VmHandler.Event.Shelf
import VmHandler.Session
import VmHandler.Proofs.Session
import VmHandler.Proofs.Reload
import VmHandler.Proofs.Alike
import VmHandler.Proofs.Provenance
import VmHandler.Proofs.Reports
import VmHandler.Proofs.Shelf
import VmHandler.Proofs.Defects
import VmHandler.Proofs.TokenForms
import VmHandler.Proofs.Respelling
import VmHandler.Proofs.Extension
import VmHandler.Proofs.MethodLists
import VmHandler.Proofs.Concatenation
import VmHandler.Proofs.Monotone
import VmHandler.Proofs.Shapes
import VmHandler.Proofs.SharedTokens
import VmHandler.Proofs.Loading
import VmHandler.Proofs.Agreement
