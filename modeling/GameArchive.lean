import GameArchive.Main
import GameArchive.Proofs.Archiver.Progress
import GameArchive.Proofs.Bethesda.Names
import GameArchive.Proofs.Bethesda.Reproduction
import GameArchive.Proofs.Bethesda.StoredWindow
import GameArchive.Proofs.Btar.Grammar
import GameArchive.Proofs.Btar.Packing
import GameArchive.Proofs.Btar.Torn
import GameArchive.Proofs.Btar.Viewing
import GameArchive.Proofs.Btar.Writing
import GameArchive.Proofs.Extraction.Cancellation
import GameArchive.Proofs.Extraction.Destination
import GameArchive.Proofs.Extraction.Placement
import GameArchive.Proofs.Extraction.Recording
import GameArchive.Proofs.Extraction.Repeated
import GameArchive.Proofs.Extraction.Selection
import GameArchive.Proofs.Extraction.Unpacking
import GameArchive.Proofs.Extraction.Upkeep
import GameArchive.Proofs.FileTree.Copying
import GameArchive.Proofs.FileTree.Upkeep
import GameArchive.Proofs.FileTree.WellFormed
import GameArchive.Proofs.Limiter.Slots
import GameArchive.Proofs.Omod.Overwriting
import GameArchive.Proofs.Omod.Quarantine
import GameArchive.Proofs.Omod.Records
import GameArchive.Proofs.Omod.Slicing
import GameArchive.Proofs.Omod.TextLength
import GameArchive.Proofs.Path.Forms
import GameArchive.Proofs.Path.Slashed
import GameArchive.Proofs.Signature
import GameArchive.Proofs.Tes4.Duplicates
import GameArchive.Proofs.Tes4.Listing
import GameArchive.Proofs.Tes4.Nameless
import GameArchive.Proofs.Tes4.Rebuild
import GameArchive.Proofs.Tes4.Relisting
import GameArchive.Proofs.Tes4.Reordering
import GameArchive.Proofs.Tes4.Search
import GameArchive.Proofs.Text.Hexadecimal
import GameArchive.Proofs.Text.Marks
import GameArchive.Proofs.Text.ZeroFree
