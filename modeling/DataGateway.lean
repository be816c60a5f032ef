import DataGateway.Form.Client
import DataGateway.Form.Config
import DataGateway.Proofs.Assembler.Independence
import DataGateway.Proofs.Assembler.Refusing
import DataGateway.Proofs.Client.Paging
import DataGateway.Proofs.Client.Refusal
import DataGateway.Proofs.Client.Timeouts
import DataGateway.Proofs.Message.Bounds
import DataGateway.Proofs.Message.Coordinates
import DataGateway.Proofs.Message.Corruption
import DataGateway.Proofs.Message.Counting
import DataGateway.Proofs.Message.Delimiting
import DataGateway.Proofs.Message.Entrances
import DataGateway.Proofs.Message.Reserved
import DataGateway.Proofs.Session.Exchange
import DataGateway.Proofs.Session.Fragmenting
import DataGateway.Proofs.Session.Login
import DataGateway.Proofs.Session.Slicing
import DataGateway.Proofs.Statements
